import DubboAdmin.Instances.Subscribers

/-!
# The life cycle of an instance

The RPC instance and the runtime instance of one instance (`Identity`) come and go independently of
each other, and each of the two subscribers keeps the one instance resource that both write to.
`Reflects` says that the store shows the last upsert of each source without a later delete
(`Sources`).

The subscribers infer from the fields of an instance whether the other source is still there, and
`RegisterTime`, which stands for the RPC source, is empty where the metadata holds no timestamp
(`runtimeDelete_keeps`). The runtime store is written before its events are processed, and an RPC
upsert looks there, so that the instance may be ahead of the processed events (`Ahead`).
-/

namespace DubboAdmin.Instances

open Strings Controller

variable {S R : Type}

/-! ## One instance -/

/-- What identifies an instance. -/
structure Identity where
  /-- Its mesh, which is the registry that it is in. -/
  mesh : String
  appName : String
  ip : String
  rpcPort : ℤ
  mesh_not_blank : isBlank mesh = false
  mesh_ne_default : defaultMesh ≠ mesh
  appName_not_blank : isBlank appName = false
  ip_not_blank : isBlank ip = false
  rpcPort_pos : 0 < rpcPort

namespace Identity

/-- The name of the instance resource. -/
def name (id : Identity) : String := buildInstanceResName id.appName id.ip id.rpcPort

/-- The key of the instance resource. -/
def key (id : Identity) : String := buildResourceKey id.mesh id.name

/-- The RPC instance with the given metadata. -/
def rpcInstance (id : Identity) (formats : Formats) (metadata : StringMap) : RPCInstanceResource :=
  toRPCInstance formats id.mesh id.appName id.ip id.rpcPort metadata

/-- A runtime instance, from an engine that has a name and is Kubernetes. -/
structure Runtime (id : Identity) where
  res : RuntimeInstanceResource
  spec : RuntimeInstance
  spec_eq : res.spec.spec = some spec
  mesh_eq : res.mesh = id.mesh
  appName_eq : spec.appName = id.appName
  ip_eq : spec.ip = id.ip
  rpcPort_eq : spec.rpcPort = id.rpcPort
  engineType_eq : spec.sourceEngineType = kubernetes
  engine_ne_empty : spec.sourceEngine ≠ ""

/-- An instance resource of the identity. -/
def Names (id : Identity) (inst : InstanceResource) : Prop :=
  inst.mesh = id.mesh ∧ ∃ spec, inst.spec.spec = some spec ∧ spec.appName = id.appName ∧
    spec.ip = id.ip ∧ spec.rpcPort = id.rpcPort

theorem Runtime.name_eq {id : Identity} (rt : id.Runtime) :
    buildInstanceResName rt.spec.appName rt.spec.ip rt.spec.rpcPort = id.name := by
  rw [rt.appName_eq, rt.ip_eq, rt.rpcPort_eq]
  rfl

end Identity

/-- An event of one of the two sources, or the change of the runtime store that comes before an
event of the runtime source. -/
inductive SourceEvent (id : Identity) where
  /-- The RPC instance with this metadata was added or updated. -/
  | rpcUpsert (metadata : StringMap)
  /-- The RPC instance with this metadata was deleted, and the event is processed at `now`. -/
  | rpcDelete (metadata : StringMap) (now : String)
  | runtimeStored (c : Change id.Runtime)
  /-- The runtime instance was added, updated or deleted. -/
  | runtime (c : Change id.Runtime)

/-- What the two sources have last said. -/
structure Sources (id : Identity) where
  /-- The metadata of the last upserted RPC instance, unless a delete has come since. -/
  rpc : Option StringMap := none
  /-- The last upserted runtime instance, unless a delete has come since. -/
  runtime : Option id.Runtime := none

/-- What is there after a change. -/
def Change.result {ρ : Type} : Change ρ → Option ρ
  | .upsert r => some r
  | .delete _ => none

/-- The sources after one more event. -/
def Sources.next {id : Identity} (src : Sources id) : SourceEvent id → Sources id
  | .rpcUpsert metadata => { src with rpc := some metadata }
  | .rpcDelete _ _ => { src with rpc := none }
  | .runtimeStored _ => src
  | .runtime c => { src with runtime := c.result }

/-- The sources after a sequence of events. -/
def sourcesAfter {id : Identity} (events : List (SourceEvent id)) : Sources id :=
  events.foldl Sources.next {}

/-! ## The system -/

/-- The two stores, the instance events that were sent, and the events of the runtime source that
wait to be processed. -/
structure Stores (S R : Type) (id : Identity) where
  world : InstanceWorld S
  runtime : R
  /-- The changes of the runtime store whose events were not processed yet. -/
  pending : List (Change id.Runtime)

/-- The runtime store holds the given runtime instance with the address, if any, and no other. -/
structure RuntimeInstanceStore.OnlyAt (rts : RuntimeInstanceStore R) (r : R) (ip : String)
    (rt : Option RuntimeInstanceResource) : Prop where
  valid : rts.valid r
  exact : rts.exact r
  mem_iff : ∀ res, res ∈ (rts.stored r).items ∧
    ip ∈ runtimeInstanceIndexers.values byRuntimeInstanceIPIndex res ↔ rt = some res

/-- The runtime source of the identity is all that the runtime store has at the address. -/
def RuntimeInstanceStore.Has (rts : RuntimeInstanceStore R) {id : Identity} (r : R)
    (rt : Option id.Runtime) : Prop :=
  rts.OnlyAt r id.ip (rt.map Identity.Runtime.res)

/-- What storing a runtime instance with the address makes of the runtime store. -/
theorem RuntimeInstanceStore.OnlyAt.put {rts : RuntimeInstanceStore R} {r r' : R} {ip : String}
    {rt : Option RuntimeInstanceResource} {res : RuntimeInstanceResource} (h : rts.OnlyAt r ip rt)
    (hkey : ∀ old, rt = some old → old.resourceKey = res.resourceKey)
    (hip : ip ∈ runtimeInstanceIndexers.values byRuntimeInstanceIPIndex res)
    (hleaves : rts.Leaves r ((rts.stored r).put res) r') : rts.OnlyAt r' ip (some res) := by
  refine ⟨hleaves.valid, hleaves.exact h.exact, fun res' => ?_⟩
  rw [hleaves.stored, Keyed.mem_put]
  constructor
  · rintro ⟨rfl | ⟨hmem, hne⟩, hvalue⟩
    · rfl
    · exact absurd (hkey res' ((h.mem_iff res').mp ⟨hmem, hvalue⟩)) hne
  · intro hres
    cases hres
    exact ⟨.inl rfl, hip⟩

theorem RuntimeInstanceStore.OnlyAt.erase {rts : RuntimeInstanceStore R} {r r' : R}
    {ip key : String} {rt : Option RuntimeInstanceResource} (h : rts.OnlyAt r ip rt)
    (hkey : ∀ old, rt = some old → old.resourceKey = key)
    (hleaves : rts.Leaves r ((rts.stored r).erase key) r') : rts.OnlyAt r' ip none := by
  refine ⟨hleaves.valid, hleaves.exact h.exact, fun res => ?_⟩
  rw [hleaves.stored, Keyed.mem_erase]
  constructor
  · rintro ⟨⟨hmem, hne⟩, hvalue⟩
    exact absurd (hkey res ((h.mem_iff res).mp ⟨hmem, hvalue⟩)) hne
  · exact nofun

/-- Processing one event. The runtime store is updated at some time before a runtime event is
processed, and its events are processed in the order of the updates. -/
inductive SourceStep (formats : Formats) (sub : RPCInstanceEventSubscriber S R) (id : Identity) :
    Stores S R id → SourceEvent id → Stores S R id → Prop
  | rpcUpsert (x : Stores S R id) (metadata : StringMap) :
      SourceStep formats sub id x (.rpcUpsert metadata)
        { x with
          world := (sub.processUpsert x.runtime x.world (id.rpcInstance formats metadata)).2 }
  | rpcDelete (x : Stores S R id) (metadata : StringMap) (now : String) :
      SourceStep formats sub id x (.rpcDelete metadata now)
        { x with world := (sub.processDelete now x.world (id.rpcInstance formats metadata)).2 }
  | runtimeStored (x : Stores S R id) (c : Change id.Runtime) (r : R)
      (hupdated : sub.rtInstanceStore.Has r c.result) :
      SourceStep formats sub id x (.runtimeStored c)
        { x with runtime := r, pending := x.pending ++ [c] }
  | runtimeUpsert (x : Stores S R id) (rt : id.Runtime) (rest : List (Change id.Runtime))
      (hpending : x.pending = .upsert rt :: rest) :
      SourceStep formats sub id x (.runtime (.upsert rt))
        { x with
          world :=
            (RuntimeInstanceEventSubscriber.processUpsert ⟨sub.instanceStore⟩ x.world rt.res).2
          pending := rest }
  | runtimeDelete (x : Stores S R id) (rt : id.Runtime) (rest : List (Change id.Runtime))
      (hpending : x.pending = .delete rt :: rest) :
      SourceStep formats sub id x (.runtime (.delete rt))
        { x with
          world :=
            (RuntimeInstanceEventSubscriber.processDelete ⟨sub.instanceStore⟩ x.world rt.res).2
          pending := rest }

/-- An instance shows the sources: the fields of the last upserts, or cleared ones. -/
structure Shows (formats : Formats) {id : Identity} (src : Sources id) (labels : StringMap)
    (spec : Instance) : Prop where
  rpc : ∀ metadata, src.rpc = some metadata →
    (id.rpcInstance formats metadata).spec.map RPCInstance.rpcFields = some spec.rpcFields
  /-- The cleared RPC fields, of which the time of the clearing is set aside. -/
  noRPC : src.rpc = none → { spec.rpcFields with unregisterTime := "" } = ({} : RPCFields)
  /-- The runtime fields, where the source is there. -/
  runtime : ∀ rt, src.runtime = some rt →
    spec.runtimeFields labels = rt.spec.runtimeFields rt.res.spec.labels
  noRuntime : src.runtime = none → spec.runtimeFields labels = {}

/-- The stored instances reflect the sources. -/
structure Reflects (formats : Formats) {id : Identity} (src : Sources id)
    (contents : Contents (Labelled Instance)) : Prop where
  /-- The instance is stored exactly if one of the sources is there. -/
  exists_iff : (∃ inst ∈ contents.items, id.Names inst) ↔
    src.rpc.isSome = true ∨ src.runtime.isSome = true
  shows : ∀ inst ∈ contents.items, id.Names inst →
    ∃ spec, inst.spec.spec = some spec ∧ Shows formats src inst.spec.labels spec

/-- Neither store knows of the identity: no instance has its key, its address, or its name in its
mesh, and no runtime instance has its address. -/
structure Unused (sub : RPCInstanceEventSubscriber S R) {id : Identity} (x : Stores S R id) :
    Prop where
  valid : sub.instanceStore.valid x.world.store
  exact : sub.instanceStore.exact x.world.store
  free : ∀ r ∈ (sub.instanceStore.stored x.world.store).items, r.resourceKey ≠ id.key ∧
    id.ip ∉ instanceIndexers.values byInstanceIpIndex r ∧
    (r.mesh = id.mesh → id.name ∉ instanceIndexers.values byInstanceNameIndex r)
  runtime : sub.rtInstanceStore.OnlyAt x.runtime id.ip none
  pending : x.pending = []

/-! ## What merging and clearing make of the instance -/

/-- The instance resource of the identity, which shows the sources. -/
structure Describes (formats : Formats) {id : Identity} (src : Sources id)
    (inst : InstanceResource) (spec : Instance) : Prop where
  kind_eq : inst.kind = instanceKind
  mesh_eq : inst.mesh = id.mesh
  name_eq : inst.name = id.name
  spec_eq : inst.spec.spec = some spec
  ident_eq : spec.ident = (id.name, id.appName, id.ip, id.rpcPort)
  present : src.rpc.isSome = true ∨ src.runtime.isSome = true
  shows : Shows formats src inst.spec.labels spec

namespace Describes

variable {formats : Formats} {id : Identity} {src : Sources id} {inst : InstanceResource}
  {spec : Instance}

theorem resourceKey_eq (h : Describes formats src inst spec) : inst.resourceKey = id.key := by
  unfold Resource.resourceKey Identity.key
  rw [h.mesh_eq, h.name_eq]

theorem get?_eq (h : Describes formats src inst spec) (contents : Contents (Labelled Instance)) :
    contents.get? inst.resourceKey = contents.get? id.key := by
  rw [h.resourceKey_eq]

theorem names (h : Describes formats src inst spec) : id.Names inst := by
  have hident := h.ident_eq
  simp only [Instance.ident, Prod.mk.injEq] at hident
  exact ⟨h.mesh_eq, spec, h.spec_eq, hident.2⟩

theorem mergeRPC (h : Describes formats src inst spec) (metadata : StringMap) :
    ∃ inst' spec', mergeRPCInstanceIntoInstance (id.rpcInstance formats metadata) inst = .ok inst' ∧
      Describes formats (src.next (.rpcUpsert metadata)) inst' spec' := by
  unfold mergeRPCInstanceIntoInstance
  rw [h.spec_eq]
  refine ⟨_, _, rfl, ⟨h.kind_eq, h.mesh_eq, h.name_eq, rfl, h.ident_eq, .inl rfl, ?_⟩⟩
  refine ⟨fun m hm => ?_, nofun, h.shows.runtime, h.shows.noRuntime⟩
  cases hm
  rfl

theorem fromRPC (formats : Formats) (id : Identity) (metadata : StringMap) :
    ∃ inst spec, fromRPCInstance (id.rpcInstance formats metadata) = .ok inst ∧
      Describes formats (({} : Sources id).next (.rpcUpsert metadata)) inst spec := by
  refine ⟨_, _, rfl, ⟨rfl, rfl, rfl, rfl, rfl, .inl rfl, ?_⟩⟩
  refine ⟨fun m hm => ?_, nofun, nofun, fun _ => rfl⟩
  cases hm
  rfl

theorem mergeRuntime (h : Describes formats src inst spec) (rt : id.Runtime) :
    ∃ inst' spec', mergeRuntimeInstanceIntoInstance rt.res inst = .ok inst' ∧
      Describes formats (src.next (.runtime (.upsert rt))) inst' spec' := by
  unfold mergeRuntimeInstanceIntoInstance
  rw [h.spec_eq, rt.spec_eq]
  refine ⟨_, _, rfl, ⟨h.kind_eq, h.mesh_eq, h.name_eq, rfl, h.ident_eq, .inr rfl, ?_⟩⟩
  refine ⟨h.shows.rpc, h.shows.noRPC, fun rt' hrt => ?_, nofun⟩
  cases hrt
  rfl

/-- A runtime upsert that creates the instance. -/
theorem fromRuntime (formats : Formats) (rt : id.Runtime) :
    ∃ inst spec, fromRuntimeInstance rt.res = .ok inst ∧
      Describes formats (({} : Sources id).next (.runtime (.upsert rt))) inst spec := by
  unfold fromRuntimeInstance mergeRuntimeInstanceIntoInstance
  simp only [rt.spec_eq, newInstanceResourceWithAttributes, rt.name_eq]
  refine ⟨_, _, rfl, ⟨rfl, rt.mesh_eq, rfl, rfl, ?_, .inr rfl, ?_⟩⟩
  · rw [ident_mergeRuntime]
    simp only [Instance.ident, rt.appName_eq, rt.ip_eq, rt.rpcPort_eq]
  · refine ⟨nofun, fun _ => rfl, fun rt' hrt => ?_, nofun⟩
    cases hrt
    rfl

/-- The runtime source is found in the fields: an engine always has a name. -/
theorem hasRuntime_clearRPC (h : Describes formats src inst spec) (now : String) :
    hasRuntimeInstanceSource (clearRPCInstanceFromInstance now inst) = src.runtime.isSome := by
  unfold hasRuntimeInstanceSource clearRPCInstanceFromInstance
  rw [h.spec_eq]
  cases hrt : src.runtime with
  | none =>
    have hfields := h.shows.noRuntime hrt
    simp only [Instance.runtimeFields, RuntimeFields.mk.injEq] at hfields
    simp [Instance.clearRPC, hfields]
  | some rt =>
    have hfields := h.shows.runtime rt hrt
    simp only [Instance.runtimeFields, RuntimeInstance.runtimeFields,
      RuntimeFields.mk.injEq] at hfields
    simp [Instance.clearRPC, hfields, rt.engine_ne_empty]

theorem clearRPC (h : Describes formats src inst spec) (metadata : StringMap) (now : String)
    (hrt : src.runtime.isSome = true) :
    Describes formats (src.next (.rpcDelete metadata now)) (clearRPCInstanceFromInstance now inst)
      (spec.clearRPC now) := by
  have hspec : (clearRPCInstanceFromInstance now inst).spec.spec = some (spec.clearRPC now) := by
    unfold clearRPCInstanceFromInstance
    rw [h.spec_eq]
    rfl
  exact ⟨h.kind_eq, h.mesh_eq, h.name_eq, hspec, h.ident_eq, .inr hrt,
    ⟨nofun, fun _ => rfl, h.shows.runtime, h.shows.noRuntime⟩⟩

/-- The RPC source is found in the fields where its metadata has a timestamp. -/
theorem hasRPC_clearRuntime (h : Describes formats src inst spec)
    (hdated : ∀ metadata, src.rpc = some metadata →
      (parseInt64 (valueAt metadata timestampKey)).isSome = true) :
    hasRPCInstanceSource (clearRuntimeInstanceFromInstance inst) = src.rpc.isSome := by
  unfold hasRPCInstanceSource clearRuntimeInstanceFromInstance
  rw [h.spec_eq]
  cases hrpc : src.rpc with
  | none =>
    have hfields := h.shows.noRPC hrpc
    simp only [Instance.rpcFields, RPCFields.mk.injEq] at hfields
    simp [Instance.clearRuntime, hfields]
  | some metadata =>
    have hfields := Option.some.inj (h.shows.rpc metadata hrpc)
    simp only [RPCInstance.rpcFields, Instance.rpcFields, RPCFields.mk.injEq] at hfields
    have hregistered := (registerTimeOf_ne_empty_iff formats metadata).mpr (hdated metadata hrpc)
    have htime : spec.registerTime = registerTimeOf formats metadata := hfields.2.1.symm
    simp [Instance.clearRuntime, htime, hregistered]

theorem clearRuntime (h : Describes formats src inst spec) (rt : id.Runtime)
    (hrpc : src.rpc.isSome = true) :
    Describes formats (src.next (.runtime (.delete rt))) (clearRuntimeInstanceFromInstance inst)
      spec.clearRuntime := by
  have hinst : clearRuntimeInstanceFromInstance inst =
      { inst with spec := ⟨∅, some spec.clearRuntime⟩ } := by
    unfold clearRuntimeInstanceFromInstance
    rw [h.spec_eq]
  rw [hinst]
  exact ⟨h.kind_eq, h.mesh_eq, h.name_eq, rfl, h.ident_eq, .inl hrpc,
    ⟨h.shows.rpc, h.shows.noRPC, nofun, fun _ => rfl⟩⟩

end Describes

/-! ## What the subscribers keep -/

/-- What an instance may show while events of the runtime source wait: what the processed events
say, or a runtime instance that was found in the store before its event. -/
structure Ahead {id : Identity} (src : Sources id) (pending : List (Change id.Runtime))
    (shown : Sources id) : Prop where
  rpc : shown.rpc = src.rpc
  /-- A runtime instance whose event was processed is shown. -/
  runtime : ∀ rt, src.runtime = some rt → shown.runtime = some rt
  settled : pending = [] → shown.runtime = src.runtime

theorem Ahead.refl {id : Identity} (src : Sources id) (pending : List (Change id.Runtime)) :
    Ahead src pending src :=
  ⟨rfl, fun _ h => h, fun _ => rfl⟩

/-- The runtime source after the events that wait. -/
def latest {id : Identity} (src : Sources id) (pending : List (Change id.Runtime)) :
    Option id.Runtime :=
  pending.foldl (fun _ c => c.result) src.runtime

/-- The instances that are stored. -/
abbrev RPCInstanceEventSubscriber.instances (sub : RPCInstanceEventSubscriber S R) {id : Identity}
    (x : Stores S R id) : Contents (Labelled Instance) :=
  sub.instanceStore.stored x.world.store

/-- The invariant of a run with these sources so far. -/
structure Tracks (formats : Formats) (sub : RPCInstanceEventSubscriber S R) {id : Identity}
    (src : Sources id) (x : Stores S R id) : Prop where
  valid : sub.instanceStore.valid x.world.store
  exact : sub.instanceStore.exact x.world.store
  /-- No other instance has the address, or the name in the mesh. -/
  alone : ∀ r ∈ (sub.instances x).items, r.resourceKey ≠ id.key →
    id.ip ∉ instanceIndexers.values byInstanceIpIndex r ∧
    (r.mesh = id.mesh → id.name ∉ instanceIndexers.values byInstanceNameIndex r)
  /-- Where there is no instance, there is no source. -/
  absent : (sub.instances x).get? id.key = none → src = {}
  describes : ∀ inst, (sub.instances x).get? id.key = some inst →
    ∃ shown spec, Describes formats shown inst spec ∧ Ahead src x.pending shown
  /-- The runtime store has the runtime source, after the events that wait. -/
  runtime : sub.rtInstanceStore.Has x.runtime (latest src x.pending)

section Steps

variable {formats : Formats} {sub : RPCInstanceEventSubscriber S R} {id : Identity}
  {src src' : Sources id} {x : Stores S R id}

theorem Unused.tracks (h : Unused sub x) : Tracks formats sub ({} : Sources id) x where
  valid := h.valid
  exact := h.exact
  alone r hr _ := (h.free r hr).2
  absent _ := rfl
  describes inst hinst := by
    obtain ⟨hmem, hkey⟩ := Keyed.get?_eq_some_iff.mp hinst
    exact absurd hkey (h.free inst hmem).1
  runtime := by
    rw [h.pending]
    exact h.runtime

namespace Tracks

variable {s' : S} {events : List (ResourceChangedEvent (Labelled Instance))}
  {pending : List (Change id.Runtime)}

/-- Storing the instance, with the new sources. -/
theorem put (h : Tracks formats sub src x) {shown : Sources id} {inst : InstanceResource}
    {spec : Instance} (hdesc : Describes formats shown inst spec)
    (hahead : Ahead src' pending shown)
    (hleaves : sub.instanceStore.Leaves x.world.store
      ((sub.instances x).put inst) s')
    (hlatest : latest src' pending = latest src x.pending) :
    Tracks formats sub src' { x with world := ⟨s', events⟩, pending := pending } := by
  have hget : (sub.instanceStore.stored s').get? id.key = some inst := by
    rw [hleaves.stored, ← hdesc.resourceKey_eq]
    exact Keyed.get?_put_self _ _
  have hrt := h.runtime
  rw [← hlatest] at hrt
  refine ⟨hleaves.valid, hleaves.exact h.exact, fun r hr hkey => ?_, fun hnone => ?_,
    fun inst' hinst' => ?_, hrt⟩
  · -- An instance under another key was there before.
    rw [RPCInstanceEventSubscriber.instances, hleaves.stored, Keyed.mem_put] at hr
    rcases hr with rfl | ⟨hr, -⟩
    · exact absurd hdesc.resourceKey_eq hkey
    · exact h.alone r hr hkey
  · exact nomatch hget.symm.trans hnone
  · obtain rfl := Option.some.inj (hget.symm.trans hinst')
    exact ⟨shown, spec, hdesc, hahead⟩

/-- Deleting the instance with the last source. -/
theorem erase (h : Tracks formats sub src x)
    (hleaves : sub.instanceStore.Leaves x.world.store
      ((sub.instances x).erase id.key) s')
    (hlatest : latest ({} : Sources id) pending = latest src x.pending) :
    Tracks formats sub ({} : Sources id)
      { x with world := ⟨s', events⟩, pending := pending } := by
  have hget : (sub.instanceStore.stored s').get? id.key = none := by
    rw [hleaves.stored]
    exact Keyed.get?_erase_self _ _
  have hrt := h.runtime
  rw [← hlatest] at hrt
  refine ⟨hleaves.valid, hleaves.exact h.exact, fun r hr hkey => ?_, fun _ => rfl,
    fun inst hinst => (nomatch hget.symm.trans hinst), hrt⟩
  rw [RPCInstanceEventSubscriber.instances, hleaves.stored, Keyed.mem_erase] at hr
  exact h.alone r hr.1 hkey

theorem free (h : Tracks formats sub src x)
    (hnone : (sub.instances x).get? id.key = none) :
    ∀ r ∈ (sub.instances x).items,
      id.ip ∉ instanceIndexers.values byInstanceIpIndex r ∧
      (r.mesh = id.mesh → id.name ∉ instanceIndexers.values byInstanceNameIndex r) :=
  fun r hr => h.alone r hr (Keyed.get?_eq_none_iff.mp hnone r hr)

/-- The runtime subscriber finds what is stored under the key. -/
theorem getRelatedInstance_eq (h : Tracks formats sub src x) (rt : id.Runtime) :
    RuntimeInstanceEventSubscriber.getRelatedInstance ⟨sub.instanceStore⟩ x.world.store rt.res =
      .ok ((sub.instances x).get? id.key) := by
  have hident : hasRuntimeIdentity id.mesh rt.spec = true := by
    unfold hasRuntimeIdentity
    rw [rt.appName_eq, rt.ip_eq, rt.rpcPort_eq]
    simp [id.appName_not_blank, id.ip_not_blank, id.rpcPort_pos, id.mesh_not_blank]
  have hmesh : (!isBlank id.mesh && decide (defaultMesh ≠ id.mesh)) = true := by
    simp [id.mesh_not_blank, id.mesh_ne_default]
  unfold RuntimeInstanceEventSubscriber.getRelatedInstance
  rw [rt.spec_eq, rt.mesh_eq]
  simp only [rt.engineType_eq, if_true, RuntimeInstanceEventSubscriber.getRelatedKubernetesInstance,
    hident, RuntimeInstanceEventSubscriber.getRelatedByIdentity, hmesh, rt.name_eq,
    sub.instanceStore.getByKey_eq]
  show firstFound (firstFound (.ok ((sub.instances x).get? id.key)) _) _ = _
  cases hget : (sub.instances x).get? id.key with
  | some inst => rfl
  | none =>
    -- The lookups by name and by address find nothing else.
    have hfree := h.free hget
    obtain ⟨named, hnamed, -, hmem⟩ := getRelatedInstanceByName_spec
      ⟨sub.instanceStore⟩ h.valid h.exact id.mesh rt.spec
    obtain ⟨addressed, haddressed, hmem'⟩ := getRelatedInstanceByIP_spec
      ⟨sub.instanceStore⟩ h.valid h.exact rt.spec
    have hnil : named = [] := by
      rw [List.eq_nil_iff_forall_not_mem]
      intro r hr
      obtain ⟨-, hstored, hin, hvalue⟩ := (hmem r).mp hr
      rw [rt.name_eq] at hvalue
      rw [id.mesh_not_blank] at hin
      exact (hfree r hstored).2 (hin.resolve_left Bool.false_ne_true) hvalue
    have hnil' : addressed = [] := by
      rw [List.eq_nil_iff_forall_not_mem]
      intro r hr
      obtain ⟨hstored, hvalue⟩ := (hmem' r).mp hr
      rw [rt.ip_eq] at hvalue
      exact (hfree r hstored).1 hvalue
    rw [hnamed, haddressed, hnil, hnil']
    rfl

end Tracks

theorem getRelatedInstanceRes_rpcInstance (sub : RPCInstanceEventSubscriber S R) (s : S)
    (metadata : StringMap) :
    sub.getRelatedInstanceRes s (id.rpcInstance formats metadata) =
      .ok ((sub.instanceStore.stored s).get? id.key) :=
  sub.getRelatedInstanceRes_eq s _

theorem checkAttributeEnough_rpcInstance (formats : Formats) (id : Identity)
    (metadata : StringMap) : checkAttributeEnough (id.rpcInstance formats metadata) = true := by
  have hport := id.rpcPort_pos
  simp [checkAttributeEnough, Identity.rpcInstance, toRPCInstance, id.appName_not_blank,
    id.ip_not_blank, id.mesh_not_blank, id.mesh_ne_default, hport]

theorem checkAttributesEnough_runtime (rt : id.Runtime) : checkAttributesEnough rt.res = true := by
  have hport := id.rpcPort_pos
  unfold checkAttributesEnough
  rw [rt.spec_eq]
  simp [rt.appName_eq, rt.ip_eq, rt.rpcPort_eq, rt.mesh_eq, id.appName_not_blank, id.ip_not_blank,
    id.mesh_not_blank, id.mesh_ne_default, hport]

/-- The runtime instance that the RPC subscriber finds is the one that the store has. -/
theorem getRuntimeInstanceForInstance_eq_some {r : R} {rt : Option id.Runtime}
    (hrt : sub.rtInstanceStore.Has r rt) {inst : InstanceResource} {spec : Instance}
    (hip : spec.ip = id.ip) {res : RuntimeInstanceResource}
    (hfound : sub.getRuntimeInstanceForInstance r inst spec = some res) :
    ∃ rt', rt = some rt' ∧ rt'.res = res := by
  have hreg : byRuntimeInstanceIPIndex ∈ sub.rtInstanceStore.indexers := by
    rw [sub.rtInstanceStore.indexers_eq, ← AList.lookup_isSome]
    rfl
  obtain ⟨candidates, hlist, hlisting⟩ := sub.rtInstanceStore.listByIndexes_equals r
    byRuntimeInstanceIPIndex spec.ip hrt.valid hrt.exact hreg
  rw [sub.rtInstanceStore.indexers_eq] at hlisting
  unfold RPCInstanceEventSubscriber.getRuntimeInstanceForInstance at hfound
  rw [hlist] at hfound
  -- Whether it is an exact match or the first candidate, it is a candidate.
  have hcandidate : res ∈ candidates := by
    dsimp only at hfound
    split at hfound
    · next candidate hmatch =>
      cases hfound
      exact List.mem_of_find?_eq_some hmatch
    · exact List.mem_of_head? hfound
  have hat := (hlisting.mem_iff res).mp hcandidate
  rw [hip] at hat
  exact Option.map_eq_some_iff.mp ((hrt.mem_iff res).mp hat)

/-- The instance that an RPC upsert creates shows the RPC instance, and possibly the runtime
instance that the runtime store has. -/
theorem createInstance_describes {r : R} {rt : Option id.Runtime}
    (hrt : sub.rtInstanceStore.Has r rt) (metadata : StringMap) :
    ∃ inst shown spec, sub.createInstance r (id.rpcInstance formats metadata) = .ok inst ∧
      Describes formats shown inst spec ∧ shown.rpc = some metadata ∧
      (shown.runtime = none ∨ shown.runtime = rt) := by
  obtain ⟨inst, spec, hfrom, hdesc⟩ := Describes.fromRPC formats id metadata
  have hident := hdesc.ident_eq
  simp only [Instance.ident, Prod.mk.injEq] at hident
  unfold RPCInstanceEventSubscriber.createInstance
  rw [hfrom]
  show ∃ inst' shown spec', sub.findRelatedRuntimeInstanceAndMerge r inst = .ok inst' ∧ _
  unfold RPCInstanceEventSubscriber.findRelatedRuntimeInstanceAndMerge
  split_ifs
  · rw [hdesc.spec_eq]
    dsimp only
    cases hfound : sub.getRuntimeInstanceForInstance r inst spec with
    | none => exact ⟨inst, _, spec, rfl, hdesc, rfl, .inl rfl⟩
    | some res =>
      obtain ⟨rt', hrt', rfl⟩ := getRuntimeInstanceForInstance_eq_some hrt hident.2.2.1 hfound
      obtain ⟨inst', spec', hmerge, hdesc'⟩ := hdesc.mergeRuntime rt'
      exact ⟨inst', _, spec', hmerge, hdesc', rfl, .inr hrt'.symm⟩
  · exact ⟨inst, _, spec, rfl, hdesc, rfl, .inl rfl⟩

/-- An RPC upsert. -/
theorem rpcUpsert_keeps (h : Tracks formats sub src x) (metadata : StringMap) :
    Tracks formats sub (src.next (.rpcUpsert metadata))
      { x with
        world := (sub.processUpsert x.runtime x.world (id.rpcInstance formats metadata)).2 } := by
  unfold RPCInstanceEventSubscriber.processUpsert
  rw [if_pos (checkAttributeEnough_rpcInstance formats id metadata),
    getRelatedInstanceRes_rpcInstance]
  cases hget : (sub.instances x).get? id.key with
  | some inst =>
    obtain ⟨shown, spec, hdesc, hahead⟩ := h.describes inst hget
    obtain ⟨inst', spec', hmerge, hdesc'⟩ := hdesc.mergeRPC metadata
    obtain ⟨s', hresult, hleaves⟩ := upsertSource_merge hmerge h.valid hdesc'.kind_eq
      ((hdesc'.get?_eq _).trans hget)
    rw [hresult]
    exact h.put hdesc' ⟨rfl, hahead.runtime, hahead.settled⟩ hleaves rfl
  | none =>
    obtain rfl := h.absent hget
    obtain ⟨inst, shown, spec, hcreated, hdesc, hrpc, hruntime⟩ :=
      createInstance_describes h.runtime metadata
    have hcreate : (sub.createInstance x.runtime (id.rpcInstance formats metadata)).map some =
        .ok (some inst) := by
      rw [hcreated]
      rfl
    obtain ⟨s', hresult, hleaves⟩ := upsertSource_create hcreate h.valid hdesc.kind_eq
      ((hdesc.get?_eq _).trans hget)
    -- A runtime instance that is found in the store has an event that waits.
    have hsettled : x.pending = [] → shown.runtime = none := by
      intro hpending
      rcases hruntime with hnone | hlatest
      · exact hnone
      · rw [hlatest, hpending]
        rfl
    rw [hresult]
    exact h.put hdesc ⟨hrpc, nofun, hsettled⟩ hleaves rfl

/-- An RPC delete. -/
theorem rpcDelete_keeps (h : Tracks formats sub src x) (metadata : StringMap) (now : String) :
    Tracks formats sub (src.next (.rpcDelete metadata now))
      { x with
        world := (sub.processDelete now x.world (id.rpcInstance formats metadata)).2 } := by
  unfold RPCInstanceEventSubscriber.processDelete
  rw [getRelatedInstanceRes_rpcInstance]
  cases hget : (sub.instances x).get? id.key with
  | none =>
    obtain rfl := h.absent hget
    exact h
  | some inst =>
    obtain ⟨shown, spec, hdesc, hahead⟩ := h.describes inst hget
    have hkey : (clearRPCInstanceFromInstance now inst).resourceKey = id.key :=
      hdesc.resourceKey_eq
    have hold : (sub.instances x).get?
        (clearRPCInstanceFromInstance now inst).resourceKey = some inst := by
      rw [hkey, hget]
    have hsource := hdesc.hasRuntime_clearRPC now
    cases hrt : shown.runtime.isSome with
    | true =>
      have hdesc' := hdesc.clearRPC metadata now hrt
      obtain ⟨s', hresult, hleaves⟩ :=
        dropSource_clear (hsource.trans hrt) h.valid hdesc'.kind_eq hold
      rw [hresult]
      exact h.put hdesc' ⟨rfl, hahead.runtime, hahead.settled⟩ hleaves rfl
    | false =>
      -- What is not shown is not there.
      have hnone : src.runtime = none := by
        cases hsrc : src.runtime with
        | none => rfl
        | some rt =>
          rw [hahead.runtime rt hsrc] at hrt
          exact nomatch hrt
      have hnext : src.next (.rpcDelete metadata now) = {} := by
        simp only [Sources.next, hnone]
      obtain ⟨s', hresult, hleaves⟩ := dropSource_delete (hsource.trans hrt) h.valid hold
      rw [hkey] at hleaves
      have hlatest : latest ({} : Sources id) x.pending = latest src x.pending := by
        unfold latest
        rw [hnone]
      rw [hresult, hnext]
      exact h.erase hleaves hlatest

theorem runtimeStored_keeps (h : Tracks formats sub src x) (c : Change id.Runtime) {r : R}
    (hupdated : sub.rtInstanceStore.Has r c.result) :
    Tracks formats sub src { x with runtime := r, pending := x.pending ++ [c] } := by
  refine ⟨h.valid, h.exact, h.alone, h.absent, fun inst hinst => ?_, ?_⟩
  · obtain ⟨shown, spec, hdesc, hahead⟩ := h.describes inst hinst
    exact ⟨shown, spec, hdesc, hahead.rpc, hahead.runtime, fun hnil => absurd hnil (by simp)⟩
  · have hlatest : latest src (x.pending ++ [c]) = c.result := by
      unfold latest
      rw [List.foldl_append]
      rfl
    rw [hlatest]
    exact hupdated

/-- A runtime upsert. -/
theorem runtimeUpsert_keeps (h : Tracks formats sub src x) {rt : id.Runtime}
    {rest : List (Change id.Runtime)} (hpending : x.pending = .upsert rt :: rest) :
    Tracks formats sub (src.next (.runtime (.upsert rt)))
      { x with
        world := (RuntimeInstanceEventSubscriber.processUpsert ⟨sub.instanceStore⟩ x.world rt.res).2
        pending := rest } := by
  have hlatest : latest (src.next (.runtime (.upsert rt))) rest = latest src x.pending := by
    rw [hpending]
    rfl
  unfold RuntimeInstanceEventSubscriber.processUpsert
  rw [if_pos (checkAttributesEnough_runtime rt), h.getRelatedInstance_eq rt]
  cases hget : (sub.instances x).get? id.key with
  | some inst =>
    obtain ⟨shown, spec, hdesc, hahead⟩ := h.describes inst hget
    obtain ⟨inst', spec', hmerge, hdesc'⟩ := hdesc.mergeRuntime rt
    obtain ⟨s', hresult, hleaves⟩ := upsertSource_merge hmerge h.valid hdesc'.kind_eq
      ((hdesc'.get?_eq _).trans hget)
    rw [hresult]
    exact h.put hdesc' ⟨hahead.rpc, fun _ hrt => hrt, fun _ => rfl⟩ hleaves hlatest
  | none =>
    obtain rfl := h.absent hget
    obtain ⟨inst, spec, hfrom, hdesc⟩ := Describes.fromRuntime formats rt
    have hcreate : (fromRuntimeInstance rt.res).map some = .ok (some inst) := by
      rw [hfrom]
      rfl
    obtain ⟨s', hresult, hleaves⟩ := upsertSource_create hcreate h.valid hdesc.kind_eq
      ((hdesc.get?_eq _).trans hget)
    rw [hresult]
    exact h.put hdesc (Ahead.refl _ _) hleaves hlatest

/-- A runtime delete, where the metadata of a registered RPC instance has a timestamp. -/
theorem runtimeDelete_keeps (h : Tracks formats sub src x) {rt : id.Runtime}
    {rest : List (Change id.Runtime)} (hpending : x.pending = .delete rt :: rest)
    (hdated : ∀ metadata, src.rpc = some metadata →
      (parseInt64 (valueAt metadata timestampKey)).isSome = true) :
    Tracks formats sub (src.next (.runtime (.delete rt)))
      { x with
        world := (RuntimeInstanceEventSubscriber.processDelete ⟨sub.instanceStore⟩ x.world rt.res).2
        pending := rest } := by
  have hlatest : latest (src.next (.runtime (.delete rt))) rest = latest src x.pending := by
    rw [hpending]
    rfl
  unfold RuntimeInstanceEventSubscriber.processDelete
  rw [h.getRelatedInstance_eq rt]
  cases hget : (sub.instances x).get? id.key with
  | none =>
    obtain rfl := h.absent hget
    have hrt := h.runtime
    rw [← hlatest] at hrt
    exact ⟨h.valid, h.exact, h.alone, fun _ => rfl,
      fun inst hinst => (nomatch hget.symm.trans hinst), hrt⟩
  | some inst =>
    obtain ⟨shown, spec, hdesc, hahead⟩ := h.describes inst hget
    have hkey : (clearRuntimeInstanceFromInstance inst).resourceKey = id.key := by
      rw [← hdesc.resourceKey_eq]
      unfold clearRuntimeInstanceFromInstance
      rw [hdesc.spec_eq]
      rfl
    have hold : (sub.instances x).get?
        (clearRuntimeInstanceFromInstance inst).resourceKey = some inst := by
      rw [hkey, hget]
    rw [← hahead.rpc] at hdated
    have hsource := hdesc.hasRPC_clearRuntime hdated
    cases hrpc : shown.rpc.isSome with
    | true =>
      have hdesc' := hdesc.clearRuntime rt hrpc
      obtain ⟨s', hresult, hleaves⟩ :=
        dropSource_clear (hsource.trans hrpc) h.valid hdesc'.kind_eq hold
      rw [hresult]
      exact h.put hdesc' ⟨hahead.rpc, fun _ hrt => hrt, fun _ => rfl⟩ hleaves hlatest
    | false =>
      have hnone : src.rpc = none := by
        rw [← hahead.rpc]
        exact Option.isNone_iff_eq_none.mp (Option.isSome_eq_false_iff.mp hrpc)
      have hnext : src.next (.runtime (.delete rt)) = {} := by
        simp only [Sources.next, Change.result, hnone]
      obtain ⟨s', hresult, hleaves⟩ := dropSource_delete (hsource.trans hrpc) h.valid hold
      rw [hkey] at hleaves
      rw [hnext] at hlatest
      rw [hresult, hnext]
      exact h.erase hleaves hlatest

end Steps

/-! ## Whole runs -/

/-- Whenever a runtime delete is processed while the RPC instance is registered, the metadata that
the latter was last upserted with has a timestamp. -/
def DatedAtRuntimeDeletes {id : Identity} (events : List (SourceEvent id)) : Prop :=
  ∀ pre rt, pre ++ [SourceEvent.runtime (.delete rt)] <+: events →
    ∀ metadata, (sourcesAfter pre).rpc = some metadata →
      (parseInt64 (valueAt metadata timestampKey)).isSome = true

theorem sourcesAfter_concat {id : Identity} (events : List (SourceEvent id))
    (event : SourceEvent id) :
    sourcesAfter (events ++ [event]) = (sourcesAfter events).next event := by
  unfold sourcesAfter
  rw [List.foldl_append]
  rfl

/-- The metadata that the sources show was upserted. -/
theorem rpcUpsert_mem_of_sourcesAfter {id : Identity} {events : List (SourceEvent id)}
    {metadata : StringMap} (h : (sourcesAfter events).rpc = some metadata) :
    .rpcUpsert metadata ∈ events := by
  induction events using List.reverseRecOn with
  | nil => exact nomatch h
  | append_singleton events event ih =>
    rw [sourcesAfter_concat] at h
    cases event with
    | rpcUpsert m =>
      cases h
      exact List.mem_append_right _ (List.mem_singleton_self _)
    | rpcDelete m now => exact nomatch h
    | runtimeStored _ | runtime _ => exact List.mem_append_left _ (ih h)

theorem datedAtRuntimeDeletes_of_forall {id : Identity} {events : List (SourceEvent id)}
    (h : ∀ metadata, .rpcUpsert metadata ∈ events →
      (parseInt64 (valueAt metadata timestampKey)).isSome = true) :
    DatedAtRuntimeDeletes events := by
  intro pre rt hpre metadata hmetadata
  have hmem := rpcUpsert_mem_of_sourcesAfter hmetadata
  exact h metadata (hpre.subset (List.mem_append_left _ hmem))

/-- The invariant holds after every run. -/
theorem tracks_of_run {formats : Formats} {sub : RPCInstanceEventSubscriber S R} {id : Identity}
    {x₀ x : Stores S R id} {events : List (SourceEvent id)} (hunused : Unused sub x₀)
    (hrun : Run (SourceStep formats sub id) x₀ events x) (hdated : DatedAtRuntimeDeletes events) :
    Tracks formats sub (sourcesAfter events) x := by
  induction hrun with
  | nil => exact hunused.tracks
  | @snoc events x x' event hrun hstep ih =>
    have hbefore : Tracks formats sub (sourcesAfter events) x :=
      ih fun pre rt hpre => hdated pre rt (hpre.trans (List.prefix_append events [event]))
    rw [sourcesAfter_concat]
    cases hstep with
    | rpcUpsert metadata => exact rpcUpsert_keeps hbefore metadata
    | rpcDelete metadata now => exact rpcDelete_keeps hbefore metadata now
    | runtimeStored c r hupdated => exact runtimeStored_keeps hbefore c hupdated
    | runtimeUpsert rt rest hpending => exact runtimeUpsert_keeps hbefore hpending
    | runtimeDelete rt rest hpending =>
      exact runtimeDelete_keeps hbefore hpending (hdated events rt (List.prefix_refl _))

/-- Where no event waits, the invariant says that the store reflects the sources. -/
theorem Tracks.reflects {formats : Formats} {sub : RPCInstanceEventSubscriber S R} {id : Identity}
    {src : Sources id} {x : Stores S R id} (h : Tracks formats sub src x) (hdone : x.pending = []) :
    Reflects formats src (sub.instances x) := by
  have hdescribes : ∀ inst, (sub.instances x).get? id.key = some inst →
      ∃ spec, Describes formats src inst spec := by
    intro inst hinst
    obtain ⟨shown, spec, hdesc, hahead⟩ := h.describes inst hinst
    have hshown : shown = src := by
      obtain ⟨rpc, runtime⟩ := shown
      obtain ⟨rpc', runtime'⟩ := src
      obtain rfl : rpc = rpc' := hahead.rpc
      obtain rfl : runtime = runtime' := hahead.settled hdone
      rfl
    exact ⟨spec, hshown ▸ hdesc⟩
  have hown : ∀ inst ∈ (sub.instances x).items, id.Names inst →
      (sub.instances x).get? id.key = some inst := by
    intro inst hinst hnames
    obtain ⟨-, spec, hspec, -, hip, -⟩ := hnames
    -- Its address tells it from every instance under another key.
    have hkey : inst.resourceKey = id.key := by
      by_contra hne
      refine (h.alone inst hinst hne).1 (mem_values_ip.mpr ⟨spec, hspec, ?_, hip⟩)
      rw [hip]
      exact id.ip_not_blank
    rw [← hkey]
    exact Keyed.get?_key hinst
  refine ⟨⟨?_, ?_⟩, ?_⟩
  · rintro ⟨inst, hinst, hnames⟩
    obtain ⟨spec, hdesc⟩ := hdescribes inst (hown inst hinst hnames)
    exact hdesc.present
  · intro hpresent
    cases hget : (sub.instances x).get? id.key with
    | none =>
      obtain rfl := h.absent hget
      exact absurd hpresent (by simp)
    | some inst =>
      obtain ⟨spec, hdesc⟩ := hdescribes inst hget
      exact ⟨inst, (Keyed.get?_eq_some_iff.mp hget).1, hdesc.names⟩
  · intro inst hinst hnames
    obtain ⟨spec, hdesc⟩ := hdescribes inst (hown inst hinst hnames)
    exact ⟨spec, hdesc.spec_eq, hdesc.shows⟩

/-! ## An instance of both sources -/

/-- A sample identity. -/
def sampleIdentity : Identity where
  mesh := "nacos"
  appName := "shop"
  ip := "10.0.0.1"
  rpcPort := 20880
  mesh_not_blank := by decide
  mesh_ne_default := by decide
  appName_not_blank := by decide
  ip_not_blank := by decide
  rpcPort_pos := by decide

/-- Its pod. -/
def samplePod : RuntimeInstance where
  name := "shop-0"
  appName := "shop"
  ip := "10.0.0.1"
  rpcPort := 20880
  image := "shop:1"
  createTime := ""
  startTime := ""
  readyTime := ""
  phase := "Running"
  workloadType := ""
  workloadName := ""
  node := ""
  probes := []
  conditions := []
  sourceEngine := "k8s"
  sourceEngineType := kubernetes

/-- The runtime instance of the pod. -/
def sampleRuntime : sampleIdentity.Runtime where
  res := ⟨runtimeInstanceKind, "nacos", "shop-0", ⟨∅, some samplePod⟩⟩
  spec := samplePod
  spec_eq := rfl
  mesh_eq := rfl
  appName_eq := rfl
  ip_eq := rfl
  rpcPort_eq := rfl
  engineType_eq := rfl
  engine_ne_empty := by decide

theorem sampleTime_ne_empty : "2024-01-01 00:00:00" ≠ "" := by decide

/-- Formats that serve every purpose alike. -/
def sampleFormats : Formats where
  formatMilli _ := "2024-01-01 00:00:00"
  formatMilli_ne_empty _ := sampleTime_ne_empty
  unmarshalParams _ := ∅

/-- The subscriber, with memory stores. -/
def sampleRPCSubscriber : RPCInstanceEventSubscriber (Memory.ResourceStore (Labelled Instance))
    (Memory.ResourceStore (Labelled RuntimeInstance)) where
  instanceStore := memoryInstanceStore
  rtInstanceStore := memoryRuntimeInstanceStore
  engineType := kubernetes

/-- Empty stores. -/
def sampleStores : Stores (Memory.ResourceStore (Labelled Instance))
    (Memory.ResourceStore (Labelled RuntimeInstance)) sampleIdentity where
  world := ⟨Memory.init instanceIndexers, []⟩
  runtime := Memory.init runtimeInstanceIndexers
  pending := []

/-- The instance is registered, its pod appears, and its pod goes away. -/
def sampleEvents (metadata : StringMap) : List (SourceEvent sampleIdentity) :=
  [.rpcUpsert metadata, .runtimeStored (.upsert sampleRuntime), .runtime (.upsert sampleRuntime),
    .runtimeStored (.delete sampleRuntime), .runtime (.delete sampleRuntime)]

/-- The instance store after these events. -/
def sampleResult (metadata : StringMap) :
    InstanceWorld (Memory.ResourceStore (Labelled Instance)) :=
  let runtimeSub : RuntimeInstanceEventSubscriber _ := ⟨memoryInstanceStore⟩
  let w := (sampleRPCSubscriber.processUpsert (Memory.init runtimeInstanceIndexers)
    sampleStores.world (sampleIdentity.rpcInstance sampleFormats metadata)).2
  let w := (runtimeSub.processUpsert w sampleRuntime.res).2
  (runtimeSub.processDelete w sampleRuntime.res).2

theorem sampleStores_unused : Unused sampleRPCSubscriber sampleStores where
  valid := rfl
  exact := trivial
  free _ hr := nomatch hr
  runtime := ⟨rfl, trivial, fun _ => ⟨fun h => (nomatch h.1), nofun⟩⟩
  pending := rfl

/-- The events are a run. -/
theorem sampleEvents_run (metadata : StringMap) :
    ∃ x, Run (SourceStep sampleFormats sampleRPCSubscriber sampleIdentity) sampleStores
      (sampleEvents metadata) x ∧ x.world = sampleResult metadata ∧ x.pending = [] := by
  have hnone := sampleStores_unused.runtime
  -- The pod is added to the runtime store, and deleted again.
  have hadded := (memoryRuntimeInstanceStore.add_spec sampleStores.runtime sampleRuntime.res rfl rfl
    rfl).2
  have hstored : memoryRuntimeInstanceStore.OnlyAt _ sampleIdentity.ip (some sampleRuntime.res) :=
    hnone.put nofun (mem_values_runtimeIP.mpr ⟨samplePod, rfl, by decide, rfl⟩) hadded
  have hdeleted := memoryRuntimeInstanceStore.delete_spec _ sampleRuntime.res hadded.valid
  have hgone := hstored.erase (fun old hold => by rw [← Option.some.inj hold]) hdeleted
  have h₁ : Run (SourceStep sampleFormats sampleRPCSubscriber sampleIdentity) sampleStores
      [.rpcUpsert metadata] _ := Run.nil.snoc (.rpcUpsert sampleStores metadata)
  have h₂ := h₁.snoc (SourceStep.runtimeStored _ (.upsert sampleRuntime) _ hstored)
  have h₃ := h₂.snoc (SourceStep.runtimeUpsert _ sampleRuntime [] rfl)
  have h₄ := h₃.snoc (SourceStep.runtimeStored _ (.delete sampleRuntime) _ hgone)
  exact ⟨_, h₄.snoc (SourceStep.runtimeDelete _ sampleRuntime [] rfl), rfl, rfl⟩

/-- A timestamp that is a number. -/
def sampleMetadata : StringMap := AList.singleton timestampKey "1700000000000"

/-! ## The life cycle -/

/-- After every sequence of events of one instance, the store reflects its two sources, if each
runtime delete that is processed while the instance is registered finds an RPC instance whose
metadata had a timestamp. -/
theorem instance_reflects_sources {formats : Formats} {sub : RPCInstanceEventSubscriber S R}
    {id : Identity} {x₀ x : Stores S R id} {events : List (SourceEvent id)}
    (hunused : Unused sub x₀) (hrun : Run (SourceStep formats sub id) x₀ events x)
    (hdone : x.pending = []) (hdated : DatedAtRuntimeDeletes events) :
    Reflects formats (sourcesAfter events) (sub.instanceStore.stored x.world.store) :=
  (tracks_of_run hunused hrun hdated).reflects hdone

/-- A registered instance with a timestamp outlives its pod. -/
theorem instance_reflects_sources_dated :
    ∃ x, Run (SourceStep sampleFormats sampleRPCSubscriber sampleIdentity) sampleStores
        (sampleEvents sampleMetadata) x ∧
      Reflects sampleFormats (sourcesAfter (sampleEvents sampleMetadata))
        (memoryInstanceStore.stored x.world.store) := by
  obtain ⟨x, hrun, -, hdone⟩ := sampleEvents_run sampleMetadata
  have hdated : DatedAtRuntimeDeletes (sampleEvents sampleMetadata) := by
    apply datedAtRuntimeDeletes_of_forall
    intro metadata hmem
    obtain rfl : metadata = sampleMetadata := by simpa [sampleEvents] using hmem
    decide +kernel
  exact ⟨x, hrun, instance_reflects_sources sampleStores_unused hrun hdone hdated⟩

/-- A registered instance without a timestamp is deleted with its pod. -/
theorem second_source_forgotten :
    ∃ x, Run (SourceStep sampleFormats sampleRPCSubscriber sampleIdentity) sampleStores
        (sampleEvents ∅) x ∧ x.pending = [] ∧
      (sourcesAfter (sampleEvents ∅)).rpc = some ∅ ∧
      (memoryInstanceStore.stored x.world.store).items = [] ∧
      ¬ Reflects sampleFormats (sourcesAfter (sampleEvents ∅))
        (memoryInstanceStore.stored x.world.store) := by
  obtain ⟨x, hrun, hworld, hdone⟩ := sampleEvents_run ∅
  have hempty : (memoryInstanceStore.stored x.world.store).items = [] := by
    rw [hworld]
    decide +kernel
  refine ⟨x, hrun, hdone, rfl, hempty, fun hreflects => ?_⟩
  obtain ⟨inst, hinst, -⟩ := hreflects.exists_iff.mpr (.inl rfl)
  rw [hempty] at hinst
  exact List.not_mem_nil hinst

end DubboAdmin.Instances
