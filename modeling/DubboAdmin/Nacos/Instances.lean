import DubboAdmin.Instances.Lifecycle
import DubboAdmin.Nacos.Reconcile

/-!
# The instances of a Nacos service

`processRPCInstanceUpsert` of `pkg/core/discovery/subscriber/nacos_service.go` turns the instances
of a Nacos service, which stands for an application, into RPC instances, and reconciles the store
with them. The name of an RPC instance is its application's name, directly followed by its address,
so that two applications can have instances of one name: `demo` at `110.0.0.1:20880` and `demo1` at
`10.0.0.1:20880`. `Separated` says when a snapshot gives no such name, and `Reconciled` what
reconciling is for.
-/

namespace DubboAdmin.Nacos

open Controller (World)
open Instances Strings

/-! ## Stores of RPC instances -/

/-- `ByRPCInstanceAppName`. -/
def byRPCInstanceAppNameIndex : String := "idx_rpc_instance_app_name"

def byRPCInstanceAppName : IndexFunc (Option RPCInstance) := fun obj =>
  match obj.spec with
  | none => some []
  | some spec => if isBlank spec.appName then some [] else some [spec.appName]

/-- The index functions of RPC instances. -/
def rpcInstanceIndexers : Indexers (Option RPCInstance) :=
  (AList.singleton byMeshIndex byMesh).insert byRPCInstanceAppNameIndex byRPCInstanceAppName

/-- A store of the RPC instances. -/
structure RPCInstanceStore (S : Type) extends JoinStore (Option RPCInstance) S where
  kind_eq : kind = rpcInstanceKind
  indexers_eq : indexers = rpcInstanceIndexers

/-- The instance is one of the application, in the mesh. -/
def BelongsTo (mesh appName : String) (r : RPCInstanceResource) : Prop :=
  r.mesh = mesh ∧ r.spec.map RPCInstance.appName = some appName

/-- A query can be evaluated. -/
instance (mesh appName : String) : DecidablePred (BelongsTo mesh appName) := fun r =>
  inferInstanceAs (Decidable (r.mesh = mesh ∧ r.spec.map RPCInstance.appName = some appName))

theorem indexable_rpcInstance (r : RPCInstanceResource) :
    Memory.Indexer.indexable rpcInstanceIndexers r = true := by
  show ((byRPCInstanceAppName r).isSome && true) = true
  unfold byRPCInstanceAppName
  cases r.spec with
  | none => rfl
  | some spec =>
    dsimp only
    split_ifs <;> rfl

/-- The memory store of RPC instances. -/
def memoryRPCInstanceStore : RPCInstanceStore (Memory.ResourceStore (Option RPCInstance)) where
  toJoinStore := memoryJoinStore rpcInstanceKind rpcInstanceIndexers fun r _ =>
    indexable_rpcInstance r
  kind_eq := rfl
  indexers_eq := rfl

/-- The index of application names has the name of the instance's application, unless it is blank.
-/
theorem mem_byRPCInstanceAppName {r : RPCInstanceResource} {appName : String} :
    appName ∈ (byRPCInstanceAppName r).getD [] ↔
      r.spec.map RPCInstance.appName = some appName ∧ isBlank appName = false := by
  unfold byRPCInstanceAppName
  cases r.spec with
  | none => simp
  | some spec =>
    dsimp only
    rw [Option.map_some, Option.some_inj]
    split_ifs with hblank
    · simp only [Option.getD_some, List.not_mem_nil, false_iff, not_and, Bool.not_eq_false]
      rintro rfl
      exact hblank
    · simp only [Option.getD_some, List.mem_singleton]
      constructor
      · rintro rfl
        exact ⟨rfl, Bool.not_eq_true _ ▸ hblank⟩
      · exact fun h => h.1.symm

variable {S : Type}

/-- The query by mesh and application. -/
theorem RPCInstanceStore.listOf (st : RPCInstanceStore S) {s : S} (hvalid : st.valid s)
    (hexact : st.exact s) (mesh appName : String) :
    ∃ found, st.listByIndexes s
        (equalsAll [(byMeshIndex, mesh), (byRPCInstanceAppNameIndex, appName)]) = .ok found ∧
      Listing (st.stored s) (fun r => BelongsTo mesh appName r ∧ isBlank appName = false)
        found := by
  obtain ⟨found, hfound, hlisting⟩ := st.listByIndexes_mesh hvalid hexact (st.indexers_eq ▸ rfl)
    (n := byRPCInstanceAppNameIndex) (f := byRPCInstanceAppName) (st.indexers_eq ▸ rfl) mesh appName
  refine ⟨found, hfound, fun r => (hlisting.mem_iff r).trans (and_congr_right fun _ => ?_),
    hlisting.ascending⟩
  rw [mem_byRPCInstanceAppName, ← and_assoc]
  rfl

/-! ## The subscriber -/

/-- `convertFunc`: the RPC instance of an instance of the service. -/
def convertFunc (formats : Formats) (serviceRes : NacosServiceResource) (inst : NacosInstance) :
    RPCInstanceResource :=
  toRPCInstance formats serviceRes.mesh serviceRes.name inst.ip inst.port inst.metadata

/-- `processRPCInstanceUpsert`, up to the log and to what `recordNacosInstanceEvents` writes into
the store of lifecycle events, where `route` is the result of asking the router for the store. -/
def processRPCInstanceUpsert (st : RPCInstanceStore S) (formats : Formats)
    (route : Except Failure Unit) (walk : WalkOrder (String × Option RPCInstanceResource))
    (serviceRes : NacosServiceResource) (w : World (Option RPCInstance) S) :
    Except Failure Unit × World (Option RPCInstance) S :=
  match serviceRes.spec with
  | none => (.error nilDereference, w)
  | some spec =>
  let newInstances : ResourceMap (Option RPCInstance) :=
    Keyed.ofList (spec.instances.map fun inst => entryOf (convertFunc formats serviceRes inst))
  match route with
  | .error e => (.error e, w)
  | .ok () =>
    reconcile st.toQueryStore walk
      (equalsAll [(byMeshIndex, serviceRes.mesh), (byRPCInstanceAppNameIndex, serviceRes.name)])
      newInstances w

/-- The instances of a snapshot. -/
def instancesOf (serviceRes : NacosServiceResource) : List NacosInstance :=
  match serviceRes.spec with
  | none => []
  | some spec => spec.instances

/-- The RPC instances that a snapshot converts to. -/
def converted (formats : Formats) (serviceRes : NacosServiceResource) : List RPCInstanceResource :=
  (instancesOf serviceRes).map (convertFunc formats serviceRes)

/-! ## What reconciling is for -/

section Purpose

variable (st : RPCInstanceStore S) (formats : Formats) (serviceRes : NacosServiceResource)

/-- The stored instances of the service's application. -/
def ownInstances (w : World (Option RPCInstance) S) : List RPCInstanceResource :=
  (st.stored w.store).items.filter fun r => BelongsTo serviceRes.mesh serviceRes.name r

/-- The store follows the snapshot. -/
structure Reconciled (w w' : World (Option RPCInstance) S) : Prop where
  /-- The instances of the application are the converted ones. -/
  instances : ∀ r, BelongsTo serviceRes.mesh serviceRes.name r →
    (r ∈ (st.stored w'.store).items ↔ r ∈ converted formats serviceRes)
  others : ∀ r, ¬ BelongsTo serviceRes.mesh serviceRes.name r →
    (r ∈ (st.stored w'.store).items ↔ r ∈ (st.stored w.store).items)
  /-- One event was sent for each instance that went, came or stayed. -/
  events : ∃ sent, w'.events = w.events ++ sent ∧
    sent.Perm (expectedEvents (ownInstances st serviceRes w) (converted formats serviceRes).dedup)

/-- The names of the snapshot's instances are names of this application only. -/
structure Separated (w : World (Option RPCInstance) S) : Prop where
  /-- The index of application names finds the stored instances of the application. -/
  indexed : isBlank serviceRes.name = false ∨ ownInstances st serviceRes w = []
  /-- Instances of one name are converted to the same. -/
  consistent : ∀ i ∈ instancesOf serviceRes, ∀ j ∈ instancesOf serviceRes,
    buildInstanceResName serviceRes.name i.ip i.port =
      buildInstanceResName serviceRes.name j.ip j.port →
    convertFunc formats serviceRes i = convertFunc formats serviceRes j
  /-- No instance of another application has the key of one of the snapshot. -/
  free : ∀ i ∈ instancesOf serviceRes, ∀ old ∈ (st.stored w.store).items,
    old.resourceKey =
      buildResourceKey serviceRes.mesh (buildInstanceResName serviceRes.name i.ip i.port) →
    BelongsTo serviceRes.mesh serviceRes.name old

end Purpose

/-! ## When the store follows the snapshot -/

section Follows

variable {st : RPCInstanceStore S} {formats : Formats} {serviceRes : NacosServiceResource}
  {walk : WalkOrder (String × Option RPCInstanceResource)} {w : World (Option RPCInstance) S}

theorem belongsTo_convertFunc (formats : Formats) (serviceRes : NacosServiceResource)
    (inst : NacosInstance) :
    BelongsTo serviceRes.mesh serviceRes.name (convertFunc formats serviceRes inst) :=
  ⟨rfl, rfl⟩

variable {r : RPCInstanceResource}

theorem belongsTo_of_mem_converted (h : r ∈ converted formats serviceRes) :
    BelongsTo serviceRes.mesh serviceRes.name r := by
  obtain ⟨inst, -, rfl⟩ := List.mem_map.mp h
  exact belongsTo_convertFunc formats serviceRes inst

theorem kind_of_mem_converted (st : RPCInstanceStore S) (h : r ∈ converted formats serviceRes) :
    r.kind = st.kind := by
  obtain ⟨inst, -, rfl⟩ := List.mem_map.mp h
  exact st.kind_eq.symm

theorem Separated.eq_of_key_eq (h : Separated st formats serviceRes w) {r' : RPCInstanceResource}
    (hr : r ∈ converted formats serviceRes) (hr' : r' ∈ converted formats serviceRes)
    (hkey : r.resourceKey = r'.resourceKey) : r = r' := by
  obtain ⟨i, hi, rfl⟩ := List.mem_map.mp hr
  obtain ⟨j, hj, rfl⟩ := List.mem_map.mp hr'
  refine h.consistent i hi j hj ?_
  have hlist := congrArg String.toList hkey
  simp only [Resource.resourceKey, buildResourceKey, String.toList_append] at hlist
  exact String.toList_injective (List.append_cancel_left hlist)

theorem expectedEvents_perm {σ : Type} {found found' items items' : List (Resource σ)}
    (hfound : found.Perm found') (hitems : items.Perm items') :
    (expectedEvents found items).Perm (expectedEvents found' items') := by
  unfold expectedEvents
  simp only [(hfound.map Resource.resourceKey).mem_iff, (hitems.map Resource.resourceKey).mem_iff]
  have hadded := (hitems.filter fun r => r.resourceKey ∉ found'.map Resource.resourceKey).map
    addedEvent
  exact (((hfound.filter _).map _).append hadded).append ((hitems.filter _).map _)

variable {route : Except Failure Unit}

/-- A call that succeeds has reconciled the store with the converted instances. -/
theorem processRPCInstanceUpsert_eq
    (hnil : (processRPCInstanceUpsert st formats route walk serviceRes w).1 = .ok ()) :
    processRPCInstanceUpsert st formats route walk serviceRes w =
      reconcile st.toQueryStore walk
        (equalsAll [(byMeshIndex, serviceRes.mesh), (byRPCInstanceAppNameIndex, serviceRes.name)])
        (Keyed.ofList ((converted formats serviceRes).map entryOf)) w := by
  unfold processRPCInstanceUpsert at hnil ⊢
  unfold converted instancesOf
  cases hspec : serviceRes.spec with
  | none =>
    rw [hspec] at hnil
    cases hnil
  | some spec =>
    rw [hspec] at hnil
    cases route with
    | error e => cases hnil
    | ok u =>
      rw [List.map_map]
      rfl

/-- Where the names are separated, the store follows the snapshot. -/
theorem Separated.reconciled (h : Separated st formats serviceRes w) (hvalid : st.valid w.store)
    (hexact : st.exact w.store)
    (hnil : (processRPCInstanceUpsert st formats route walk serviceRes w).1 = .ok ()) :
    Reconciled st formats serviceRes w
      (processRPCInstanceUpsert st formats route walk serviceRes w).2 := by
  obtain ⟨found, hfound, hlisting⟩ := st.listOf hvalid hexact serviceRes.mesh serviceRes.name
  -- The index finds all the stored instances of the application.
  have hown : ∀ r, r ∈ found ↔ r ∈ ownInstances st serviceRes w := by
    intro r
    unfold ownInstances
    rw [hlisting.mem_iff, List.mem_filter, decide_eq_true_eq, ← and_assoc, and_iff_left_iff_imp]
    rintro ⟨hr, hbelongs⟩
    refine h.indexed.resolve_right fun hnone => ?_
    have hmem : r ∈ ownInstances st serviceRes w :=
      List.mem_filter.mpr ⟨hr, decide_eq_true hbelongs⟩
    rw [hnone] at hmem
    exact List.not_mem_nil hmem
  have hlisting' : Listing (st.stored w.store) (BelongsTo serviceRes.mesh serviceRes.name) found :=
    ⟨fun r => by rw [hown, ownInstances, List.mem_filter, decide_eq_true_eq], hlisting.ascending⟩
  -- The map of the snapshot holds every converted instance.
  obtain ⟨items, hmap, hsub, hkeys⟩ := isMapOf_ofList (converted formats serviceRes)
  have hitems : ∀ r, r ∈ items ↔ r ∈ converted formats serviceRes := by
    refine fun r => ⟨hsub r, fun hr => ?_⟩
    obtain ⟨item, hitem, hkey⟩ := List.mem_map.mp (hkeys r hr)
    rwa [h.eq_of_key_eq hr (hsub item hitem) hkey.symm]
  have hkind : ∀ r ∈ items, r.kind = st.kind := fun r hr => kind_of_mem_converted st (hsub r hr)
  have hfree : ∀ r ∈ items, ∀ old ∈ (st.stored w.store).items, old.resourceKey = r.resourceKey →
      BelongsTo serviceRes.mesh serviceRes.name old := by
    intro r hr old hold hkey
    obtain ⟨inst, hinst, rfl⟩ := List.mem_map.mp (hsub r hr)
    exact h.free inst hinst old hold hkey
  obtain ⟨w', contents, sent, heq, hleads, hcontents, hsent⟩ :=
    reconcile_spec walk hvalid hfound hlisting' hmap hkind hfree
  rw [processRPCInstanceUpsert_eq hnil, heq]
  refine ⟨fun r hr => ?_, fun r hr => ?_, sent, hleads.events, hsent.trans ?_⟩
  · rw [hleads.leaves.stored, hcontents, hitems]
    exact or_iff_left fun hother => hother.2 hr
  · rw [hleads.leaves.stored, hcontents, hitems, and_iff_left hr]
    exact or_iff_right fun hconverted => hr (belongsTo_of_mem_converted hconverted)
  · refine expectedEvents_perm ?_ ?_
    · have hnodup : (ownInstances st serviceRes w).Nodup :=
        (st.stored w.store).nodup.of_map.filter _
      exact (List.perm_ext_iff_of_nodup hlisting.ascending.nodup.of_map hnodup).mpr hown
    · refine (List.perm_ext_iff_of_nodup hmap.nodup.of_map (List.nodup_dedup _)).mpr fun r => ?_
      rw [hitems, List.mem_dedup]

/-- An instance of the application that is stored before shows in the events, as one that is gone or
one that has stayed. -/
theorem exists_event_of_own {σ : Type} {found : List (Resource σ)} {r : Resource σ} (hr : r ∈ found)
    (items : List (Resource σ)) : ∃ event ∈ expectedEvents found items, event.typ ≠ .added := by
  by_cases hkey : r.resourceKey ∈ items.map Resource.resourceKey
  · obtain ⟨item, hitem, hsame⟩ := List.mem_map.mp hkey
    have hstayed : item.resourceKey ∈ found.map Resource.resourceKey := by
      rw [hsame]
      exact List.mem_map_of_mem hr
    refine ⟨updatedEvent item, List.mem_append_right _ (List.mem_map_of_mem ?_), nofun⟩
    exact List.mem_filter.mpr ⟨hitem, decide_eq_true hstayed⟩
  · refine ⟨deletedEvent r, List.mem_append_left _ (List.mem_append_left _ ?_), nofun⟩
    exact List.mem_map_of_mem (List.mem_filter.mpr ⟨hr, decide_eq_true hkey⟩)

/-- A store that follows the snapshot has separated names. -/
theorem Reconciled.separated (hvalid : st.valid w.store) (hexact : st.exact w.store)
    (hnil : (processRPCInstanceUpsert st formats route walk serviceRes w).1 = .ok ())
    (h : Reconciled st formats serviceRes w
      (processRPCInstanceUpsert st formats route walk serviceRes w).2) :
    Separated st formats serviceRes w := by
  have hstored : ∀ inst ∈ instancesOf serviceRes, convertFunc formats serviceRes inst ∈
      (st.stored (processRPCInstanceUpsert st formats route walk serviceRes w).2.store).items :=
    fun inst hinst => (h.instances _ (belongsTo_convertFunc formats serviceRes inst)).mpr
      (List.mem_map_of_mem hinst)
  refine ⟨?_, fun i hi j hj hname => ?_, fun i hi old hold hkey => ?_⟩
  · cases hblank : isBlank serviceRes.name with
    | false => exact .inl rfl
    | true =>
      refine .inr (List.eq_nil_iff_forall_not_mem.mpr fun r hr => ?_)
      -- The index finds nothing, and so nothing is deleted or updated.
      obtain ⟨found, hfound, hlisting⟩ := st.listOf hvalid hexact serviceRes.mesh serviceRes.name
      have hnone : found = [] := List.eq_nil_iff_forall_not_mem.mpr fun r hr => by
        have hname := ((hlisting.mem_iff r).mp hr).2.2
        rw [hblank] at hname
        cases hname
      subst hnone
      obtain ⟨items, hmap, hsub, -⟩ := isMapOf_ofList (converted formats serviceRes)
      obtain ⟨sent, hsent, hadded⟩ := reconcile_found_nothing walk hvalid hfound hmap fun r hr =>
        kind_of_mem_converted st (hsub r hr)
      obtain ⟨sent', hsent', hperm⟩ := h.events
      rw [processRPCInstanceUpsert_eq hnil, hsent] at hsent'
      obtain rfl := List.append_cancel_left hsent'
      obtain ⟨event, hevent, htyp⟩ := exists_event_of_own hr (converted formats serviceRes).dedup
      exact htyp (hadded event (hperm.mem_iff.mpr hevent))
  · refine Keyed.eq_of_key_eq (hstored i hi) (hstored j hj) ?_
    exact congrArg (buildResourceKey serviceRes.mesh) hname
  · by_contra hother
    have hkept := (h.others old hother).mpr hold
    rw [Keyed.eq_of_key_eq hkept (hstored i hi) hkey] at hother
    exact hother (belongsTo_convertFunc formats serviceRes i)

/-- After a call that returns no error, the store follows the snapshot if and only if the names of
the snapshot's instances are separated from those of other applications. -/
theorem upsert_reconciles_iff (st : RPCInstanceStore S) (formats : Formats)
    (route : Except Failure Unit) (walk : WalkOrder (String × Option RPCInstanceResource))
    (serviceRes : NacosServiceResource) (w : World (Option RPCInstance) S)
    (hvalid : st.valid w.store) (hexact : st.exact w.store)
    (hnil : (processRPCInstanceUpsert st formats route walk serviceRes w).1 = .ok ()) :
    Reconciled st formats serviceRes w
        (processRPCInstanceUpsert st formats route walk serviceRes w).2 ↔
      Separated st formats serviceRes w :=
  ⟨fun h => h.separated hvalid hexact hnil, fun h => h.reconciled hvalid hexact hnil⟩

end Follows

/-! ## Two applications with instances of one name -/

/-- Each instance is named by its application and address. -/
def ResNamed (r : RPCInstanceResource) : Prop :=
  ∃ spec, r.spec = some spec ∧ r.name = buildInstanceResName spec.appName spec.ip spec.port

/-- The RPC instance of `demo1` at `10.0.0.1:20880`. -/
def demo1Instance : RPCInstanceResource :=
  toRPCInstance sampleFormats "mesh" "demo1" "10.0.0.1" 20880 ∅

/-- A store that holds it. -/
def demo1World : World (Option RPCInstance) (Memory.ResourceStore (Option RPCInstance)) :=
  ⟨(memoryRPCInstanceStore.add (Memory.init rpcInstanceIndexers) demo1Instance).2, []⟩

/-- The snapshot of a service with one instance. -/
def snapshotOf (name ip : String) : NacosServiceResource :=
  ⟨nacosServiceKind, "mesh", name, some ⟨name, [⟨ip, 20880, ∅⟩]⟩⟩

/-- The instance of `demo` at `110.0.0.1:20880` takes the place of the one of `demo1`. -/
theorem demo_replaces_demo1 :
    (∀ r ∈ (memoryRPCInstanceStore.stored demo1World.store).items, ResNamed r) ∧
      (processRPCInstanceUpsert memoryRPCInstanceStore sampleFormats (.ok ()) (.given _)
        (snapshotOf "demo" "110.0.0.1") demo1World).1 = .ok () ∧
      ¬ Reconciled memoryRPCInstanceStore sampleFormats (snapshotOf "demo" "110.0.0.1") demo1World
        (processRPCInstanceUpsert memoryRPCInstanceStore sampleFormats (.ok ()) (.given _)
          (snapshotOf "demo" "110.0.0.1") demo1World).2 := by
  refine ⟨fun r hr => ?_, by decide +kernel, fun h => ?_⟩
  · obtain rfl : r = demo1Instance := List.mem_singleton.mp hr
    exact ⟨_, rfl, rfl⟩
  · have hother : ¬ BelongsTo "mesh" "demo" demo1Instance := by decide
    have hbefore : demo1Instance ∈ (memoryRPCInstanceStore.stored demo1World.store).items :=
      List.mem_singleton_self _
    have hafter := (h.others demo1Instance hother).mpr hbefore
    revert hafter
    decide +kernel

/-- The instance of `demo` at `10.0.0.2:20880` does not. -/
theorem demo_beside_demo1 :
    Reconciled memoryRPCInstanceStore sampleFormats (snapshotOf "demo" "10.0.0.2") demo1World
      (processRPCInstanceUpsert memoryRPCInstanceStore sampleFormats (.ok ()) (.given _)
        (snapshotOf "demo" "10.0.0.2") demo1World).2 := by
  refine (upsert_reconciles_iff memoryRPCInstanceStore sampleFormats (.ok ()) (.given _)
    (snapshotOf "demo" "10.0.0.2") demo1World rfl trivial (by decide +kernel)).mpr
    ⟨.inl (by decide), fun i hi j hj _ => ?_, by decide +kernel⟩
  rw [List.mem_singleton.mp hi, List.mem_singleton.mp hj]

end DubboAdmin.Nacos
