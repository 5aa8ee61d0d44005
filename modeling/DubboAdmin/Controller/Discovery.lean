import DubboAdmin.Controller.Informer

/-!
# Several registries over one store

`initInformers` of `pkg/core/discovery/component.go` makes the informers of one discovery config,
whose ID is the mesh of its resources. It routes each by its kind alone, so that the informers of
all meshes for one kind share one store (`storeComponent` of `pkg/core/store/component.go`), which
is also the `KnownObjects` of each informer's queue. A relist of one informer then deletes what it
does not find in its own list, also of other meshes (`relist_keeps_otherMesh_iff`,
`relist_deletes_otherMesh`).
-/

namespace DubboAdmin.Controller

variable {σ ω S : Type}

/-! ## The store component -/

/-- `storeComponent`: a store for each kind. -/
structure StoreComponent (σ S : Type) where
  stores : AList fun _ : String => LawfulStore σ S
  /-- The store under a kind was made for that kind. -/
  kinds : ∀ kind st, stores.lookup kind = some st → st.kind = kind

/-- A store of the component, as `ResourceKindRoute` hands it out. -/
structure StoreRef (σ S : Type) where
  /-- The kind under which the component holds the store. -/
  kind : String
  store : ResourceStore σ S

def StoreComponent.resourceKindRoute (sc : StoreComponent σ S) (k : String) :
    Except Failure (StoreRef σ S) :=
  match sc.stores.lookup k with
  | some store => .ok ⟨k, store.toResourceStore⟩
  | none => .error (.err (k ++ " is not supported by store yet"))

/-- The states of the stores, by kind, and the events on the bus. -/
structure System (σ S : Type) where
  states : String → S
  events : List (ResourceChangedEvent σ)

/-- Every store is in a state of its own. -/
def StoreComponent.Valid (sc : StoreComponent σ S) (sys : System σ S) : Prop :=
  ∀ kind st, sc.stores.lookup kind = some st → st.valid (sys.states kind)

/-- The resources in a store of the component. -/
def StoreComponent.stored (sc : StoreComponent σ S) (sys : System σ S) (kind : String) :
    List (Resource σ) :=
  match sc.stores.lookup kind with
  | some st => (st.stored (sys.states kind)).items
  | none => []

/-! ## The informers of a discovery config -/

/-- The fields of `discovery.Config` that the making of informers reads. -/
structure Config where
  /-- `ID`, which is the mesh of the config's resources. -/
  id : String
  type : String

/-- `ResourceListerWatcher`: its kind, and what `List` returns. -/
structure ResourceListerWatcher (σ ω : Type) where
  resourceKind : String
  list : List (Object σ ω)

/-- The lister lists these resources, which are of the kind that it is for. -/
structure ResourceListerWatcher.Lists (lw : ResourceListerWatcher σ ω) (list : List (Resource σ)) :
    Prop where
  objects : lw.list = list.map .resource
  kind : ∀ r ∈ list, r.kind = lw.resourceKind

/-- Makes the listers of a registry. -/
structure Factory (σ ω : Type) where
  support : String → Bool
  newListWatchers : Config → Except Failure (List (ResourceListerWatcher σ ω))

/-- `GetListWatcherFactory`: the first factory that supports the type. -/
def getListWatcherFactory (factories : List (Factory σ ω)) (t : String) :
    Except Failure (Factory σ ω) :=
  match factories.find? fun factory => factory.support t with
  | some factory => .ok factory
  | none => .error (.err ("discovery type " ++ t ++ " not supported"))

/-- `keyFunc`. `reflect.TypeOf` of `nil` has no name to call. -/
def keyFunc : Object σ ω → Except Failure String
  | .resource r => .ok r.resourceKey
  | .other typeName _ => .error (newAssertionError "Resource" typeName)
  | .nil => .error nilDereference

/-- An informer of the discovery component: its lister, and the store that it was given. -/
structure DiscoveryInformer (σ ω S : Type) where
  listerWatcher : ResourceListerWatcher σ ω
  indexer : StoreRef σ S

/-- `NewInformerWithOptions`, as `initInformers` calls it: no transform is set. -/
def DiscoveryInformer.informer (inf : DiscoveryInformer σ ω S) : Informer σ ω S where
  indexer := inf.indexer.store
  keyFunc := keyFunc
  transform := none

/-- One round of the loop of `initInformers`. -/
def initInformer (storeRouter : StoreComponent σ S) (lw : ResourceListerWatcher σ ω) :
    Except Failure (DiscoveryInformer σ ω S) :=
  match storeRouter.resourceKindRoute lw.resourceKind with
  | .error _ => .error (.err ("cannot find store for resource kind " ++ lw.resourceKind))
  | .ok resourceStore => .ok ⟨lw, resourceStore⟩

def initInformers (factories : List (Factory σ ω)) (storeRouter : StoreComponent σ S)
    (cfg : Config) : Except Failure (List (DiscoveryInformer σ ω S)) := do
  let factory ← getListWatcherFactory factories cfg.type
  let lwList ← factory.newListWatchers cfg
  lwList.mapM (initInformer storeRouter)

/-- A relist of an informer with what its lister returns, on the store that it was given. -/
def DiscoveryInformer.relist (inf : DiscoveryInformer σ ω S) (sys : System σ S) : System σ S :=
  let w := inf.informer.relist inf.listerWatcher.list ⟨sys.states inf.indexer.kind, sys.events⟩
  ⟨Function.update sys.states inf.indexer.kind w.store, w.events⟩

/-! ## What a relist does to another mesh -/

/-- The result of a loop over a list that stops at the first error comes from the list. -/
theorem exists_of_mem_mapM {α β : Type} {f : α → Except Failure β} {l : List α} {l' : List β}
    (h : l.mapM f = .ok l') {b : β} (hb : b ∈ l') : ∃ a ∈ l, f a = .ok b := by
  induction l generalizing l' with
  | nil =>
    obtain rfl : [] = l' := Except.ok.inj h
    cases hb
  | cons a l ih =>
    rw [List.mapM_cons] at h
    cases ha : f a with
    | error e =>
      rw [ha] at h
      cases h
    | ok b' =>
      cases hl : l.mapM f with
      | error e =>
        rw [ha, hl] at h
        cases h
      | ok bs =>
        rw [ha, hl] at h
        obtain rfl : b' :: bs = l' := Except.ok.inj h
        rcases List.mem_cons.mp hb with rfl | hb
        · exact ⟨a, List.mem_cons_self, ha⟩
        · obtain ⟨a', ha', hfa'⟩ := ih hl hb
          exact ⟨a', List.mem_cons_of_mem _ ha', hfa'⟩

/-- An informer is given the store of its lister's kind. -/
theorem initInformers_indexer {factories : List (Factory σ ω)} {sc : StoreComponent σ S}
    {cfg : Config} {infs : List (DiscoveryInformer σ ω S)}
    (h : initInformers factories sc cfg = .ok infs) {inf : DiscoveryInformer σ ω S}
    (hinf : inf ∈ infs) :
    ∃ st, sc.stores.lookup inf.listerWatcher.resourceKind = some st ∧
      inf.indexer = ⟨inf.listerWatcher.resourceKind, st.toResourceStore⟩ := by
  unfold initInformers at h
  cases hfactory : getListWatcherFactory factories cfg.type with
  | error e =>
    rw [hfactory] at h
    cases h
  | ok factory =>
    rw [hfactory] at h
    change (do let lwList ← factory.newListWatchers cfg; lwList.mapM (initInformer sc)) = _ at h
    cases hlist : factory.newListWatchers cfg with
    | error e =>
      rw [hlist] at h
      cases h
    | ok lwList =>
      rw [hlist] at h
      obtain ⟨lw, -, hlw⟩ := exists_of_mem_mapM h hinf
      -- The route looks at the kind only, not at the config.
      unfold initInformer StoreComponent.resourceKindRoute at hlw
      cases hstore : sc.stores.lookup lw.resourceKind with
      | none =>
        rw [hstore] at hlw
        cases hlw
      | some st =>
        rw [hstore] at hlw
        obtain rfl : ⟨lw, _⟩ = inf := Except.ok.inj hlw
        exact ⟨st, hstore, rfl⟩

/-- A relist leaves the other mesh's resources in a store as they were. -/
def KeepsMesh (sc : StoreComponent σ S) (sys sys' : System σ S) (kind mesh : String) : Prop :=
  ∀ r : Resource σ, r.mesh = mesh → (r ∈ sc.stored sys' kind ↔ r ∈ sc.stored sys kind)

/-- A relist of an informer leaves in its store what it lists. -/
theorem relist_stored_iff {sc : StoreComponent σ S} {inf : DiscoveryInformer σ ω S}
    {st : LawfulStore σ S} (hst : sc.stores.lookup inf.listerWatcher.resourceKind = some st)
    (hindexer : inf.indexer = ⟨inf.listerWatcher.resourceKind, st.toResourceStore⟩)
    {sys : System σ S} (hsys : sc.Valid sys) {list : List (Resource σ)}
    (hlist : inf.listerWatcher.Lists list) (r : Resource σ) :
    r ∈ sc.stored (inf.relist sys) inf.listerWatcher.resourceKind ↔
      r ∈ (Keyed.ofList list : Contents σ).items := by
  have hplain : inf.informer.Plain := ⟨rfl, fun _ => rfl⟩
  have hkind : ∀ r ∈ list, r.kind = st.kind := by
    intro r hr
    rw [sc.kinds _ st hst, hlist.kind r hr]
  have hops : inf.informer.indexer = st.toResourceStore := congrArg StoreRef.store hindexer
  have hstored := relist_stored (w := ⟨sys.states inf.listerWatcher.resourceKind, sys.events⟩) hops
    hplain hkind (hsys _ st hst) r
  simp only [StoreComponent.stored, hst, DiscoveryInformer.relist, hindexer, Function.update_self,
    hlist.objects]
  exact hstored

/-- A relist of an informer leaves the resources of another informer's mesh in their common store
unchanged if and only if its list holds the same resources of that mesh as the store. For a source
that lists its own mesh only, that is so if and only if the store holds none of the other mesh. -/
theorem relist_keeps_otherMesh_iff {factories : List (Factory σ ω)} {sc : StoreComponent σ S}
    {cfg cfg' : Config} (hid : cfg.id ≠ cfg'.id) {infs infs' : List (DiscoveryInformer σ ω S)}
    (hinfs : initInformers factories sc cfg = .ok infs)
    (hinfs' : initInformers factories sc cfg' = .ok infs') {inf inf' : DiscoveryInformer σ ω S}
    (hinf : inf ∈ infs) (hinf' : inf' ∈ infs')
    (hkind : inf.listerWatcher.resourceKind = inf'.listerWatcher.resourceKind)
    {sys : System σ S} (hsys : sc.Valid sys) {list : List (Resource σ)}
    (hlist : inf.listerWatcher.Lists list) :
    (KeepsMesh sc sys (inf.relist sys) inf'.indexer.kind cfg'.id ↔
      ∀ r : Resource σ, r.mesh = cfg'.id →
        (r ∈ (Keyed.ofList list : Contents σ).items ↔ r ∈ sc.stored sys inf'.indexer.kind)) ∧
    ((∀ r ∈ list, r.mesh = cfg.id) →
      (KeepsMesh sc sys (inf.relist sys) inf'.indexer.kind cfg'.id ↔
        ∀ r ∈ sc.stored sys inf'.indexer.kind, r.mesh ≠ cfg'.id)) := by
  obtain ⟨st, hst, hindexer⟩ := initInformers_indexer hinfs hinf
  obtain ⟨st', -, hindexer'⟩ := initInformers_indexer hinfs' hinf'
  -- Both informers were given the store of the same kind.
  have hshared : inf'.indexer.kind = inf.listerWatcher.resourceKind := by
    rw [hindexer', hkind]
  have hstored := fun r => relist_stored_iff hst hindexer hsys hlist r
  have hiff : KeepsMesh sc sys (inf.relist sys) inf'.indexer.kind cfg'.id ↔
      ∀ r : Resource σ, r.mesh = cfg'.id →
        (r ∈ (Keyed.ofList list : Contents σ).items ↔ r ∈ sc.stored sys inf'.indexer.kind) := by
    unfold KeepsMesh
    rw [hshared]
    simp only [hstored]
  refine ⟨hiff, fun hmesh => hiff.trans ?_⟩
  have hown : ∀ r ∈ (Keyed.ofList list : Contents σ).items, r.mesh ≠ cfg'.id := by
    intro r hr
    obtain ⟨l₁, l₂, rfl, -⟩ := Keyed.mem_ofList.mp hr
    rw [hmesh r (List.mem_append_right _ List.mem_cons_self)]
    exact hid
  constructor
  · exact fun h r hr hother => hown r ((h r hother).mpr hr) hother
  · intro h r hother
    exact ⟨fun hr => absurd hother (hown r hr), fun hr => absurd hother (h r hr)⟩

/-! ## Two registries -/

/-- The instance of a mesh. -/
def sampleInstance (mesh : String) : Resource String := ⟨"Instance", mesh, "i", "10.0.0.1"⟩

/-- The store component with a memory store for instances. -/
def sampleComponent : StoreComponent String (Memory.ResourceStore String) where
  stores := AList.singleton "Instance" (memoryStore "Instance" Memory.sampleIndexers fun _ _ => rfl)
  kinds := by
    intro kind st h
    obtain ⟨rfl, rfl⟩ := eq_of_lookup_singleton h
    rfl

/-- A registry of each config, which holds one instance of the config's mesh. -/
def sampleFactory : Factory String Empty where
  support _ := true
  newListWatchers cfg := .ok [⟨"Instance", [.resource (sampleInstance cfg.id)]⟩]

/-- The informer of a config. -/
def sampleInformer (cfg : Config) : DiscoveryInformer String Empty (Memory.ResourceStore String) :=
  ⟨⟨"Instance", [.resource (sampleInstance cfg.id)]⟩, ⟨"Instance", memoryOps⟩⟩

/-- The store of instances holds the given ones. -/
def sampleSystem (list : List (Resource String)) : System String (Memory.ResourceStore String) :=
  ⟨fun _ => list.foldl Memory.ResourceStore.addToTrees
    ⟨⟨Keyed.ofList list, Memory.sampleIndexers⟩, Memory.emptyTrees Memory.sampleIndexers⟩, []⟩

theorem initInformers_sample (cfg : Config) :
    initInformers [sampleFactory] sampleComponent cfg = .ok [sampleInformer cfg] := rfl

theorem valid_sampleSystem (list : List (Resource String)) :
    sampleComponent.Valid (sampleSystem list) := by
  intro kind st h
  obtain ⟨-, rfl⟩ := eq_of_lookup_singleton h
  exact (Memory.foldl_addToTrees_frame list _).2.1

theorem lists_sampleInformer (cfg : Config) :
    (sampleInformer cfg).listerWatcher.Lists [sampleInstance cfg.id] :=
  ⟨rfl, by simp [sampleInformer, sampleInstance]⟩

/-- While the store holds instances of the mesh `a` only, a relist of `a` leaves `b` as it is. -/
theorem relist_keeps_absentMesh :
    KeepsMesh sampleComponent (sampleSystem [sampleInstance "a"])
      ((sampleInformer ⟨"a", "zk"⟩).relist (sampleSystem [sampleInstance "a"])) "Instance" "b" := by
  have hid : (⟨"a", "zk"⟩ : Config).id ≠ (⟨"b", "zk"⟩ : Config).id := by decide
  have hother : sampleInformer ⟨"b", "zk"⟩ ∈ [sampleInformer ⟨"b", "zk"⟩] := List.mem_cons_self
  have hiff := relist_keeps_otherMesh_iff hid (initInformers_sample _) (initInformers_sample _)
    List.mem_cons_self hother rfl (valid_sampleSystem [sampleInstance "a"])
    (lists_sampleInformer ⟨"a", "zk"⟩)
  exact (hiff.2 (by decide)).mpr (by decide)

/-- The store holds an instance of each of the meshes `a` and `b`, as their registries list them. A
relist of `a` deletes the one of `b`. -/
theorem relist_deletes_otherMesh :
    initInformers [sampleFactory] sampleComponent ⟨"a", "zk"⟩ = .ok [sampleInformer ⟨"a", "zk"⟩] ∧
      initInformers [sampleFactory] sampleComponent ⟨"b", "zk"⟩ = .ok [sampleInformer ⟨"b", "zk"⟩] ∧
      sampleInstance "b" ∈
        sampleComponent.stored (sampleSystem [sampleInstance "a", sampleInstance "b"]) "Instance" ∧
      sampleComponent.stored ((sampleInformer ⟨"a", "zk"⟩).relist
        (sampleSystem [sampleInstance "a", sampleInstance "b"])) "Instance" =
          [sampleInstance "a"] := by
  refine ⟨rfl, rfl, ?_, ?_⟩
  · decide
  · decide

end DubboAdmin.Controller
