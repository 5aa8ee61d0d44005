import DubboAdmin.Discovery.Metadata

/-!
# Topology graphs

`GraphServices` of `pkg/console/service/service.go` draws a service with the applications that
provide and consume it, and `GraphApplications` of `application.go` an application with those that
it calls or that call it. Both query the metadata of providers and of consumers, so that the two
roles share one definition (`Role`).

The edges are exactly the relations in the stores, and they join nodes of the graph. An application
in both roles has two nodes with one ID (`graphServices_exact`, `graphApplications_exact`).
-/

namespace DubboAdmin.Console.Graph

open Discovery

/-! ## Graphs -/

/-- `GraphNode`, without `Data`, which is `nil`. -/
structure GraphNode where
  id : String
  label : String
  type : String
  rule : String

/-- `GraphEdge`, with the type that `Data` holds. -/
structure GraphEdge where
  source : String
  target : String
  type : Option String := none

/-- A graph as it is drawn. -/
structure GraphData where
  nodes : List GraphNode
  edges : List GraphEdge

def GraphData.ids (g : GraphData) : List String := g.nodes.map GraphNode.id

def applicationNode (rule app : String) : GraphNode := ⟨app, app, "application", rule⟩

/-- The first item for each key, as a loop that adds keys to a set takes them. -/
def firstBy {α : Type} (key : α → String) (items : List α) : List α :=
  items.foldl (fun taken a => if key a ∈ taken.map key then taken else taken ++ [a]) []

/-- The order in which a `range` visits a set. -/
structure RangeOrder where
  visit : List String → List String
  perm : ∀ keys, (visit keys).Perm keys

/-- A service with the applications that provide it and those that consume it. The two loops over
the sets have an order each. -/
def serviceGraph (order order' : RangeOrder) (serviceKey : String)
    (providerApps consumerApps : List String) : GraphData where
  nodes := providerApps.map (applicationNode "provider") ++
    ⟨serviceKey, serviceKey, "service", ""⟩ :: consumerApps.map (applicationNode "consumer")
  edges := (order.visit providerApps).map (⟨serviceKey, ·, some "provides"⟩) ++
    (order'.visit consumerApps).map (⟨·, serviceKey, some "consumes"⟩)

/-- An application with those that call it and those that it calls. -/
def applicationGraph (appName : String) (callers callees : List GraphEdge) : GraphData where
  nodes := applicationNode "" appName :: (callers.map (applicationNode "consumer" ·.source) ++
    callees.map (applicationNode "provider" ·.target))
  edges := callers ++ callees

/-! ## Roles -/

/-- The metadata of providers or of consumers, in a store with an exact index. -/
structure Role (σ S : Type) where
  store : JoinStore σ S
  state : S
  /-- The service key and the application, where there is a `Spec`. -/
  link : Resource σ → Option (String × String)
  keyIndex : String
  appIndex : String
  valid : store.valid state
  exact : store.exact state
  byMesh_eq : store.indexers.lookup byMeshIndex = some byMesh
  byKey_eq : store.indexers.lookup keyIndex = some fun r => some ((link r).toList.map Prod.fst)
  byApp_eq : store.indexers.lookup appIndex = some fun r => some ((link r).toList.map Prod.snd)

/-- The providers. -/
def providerRole {S : Type} (store : ProviderStore S) (s : S) (hvalid : store.valid s)
    (hexact : store.exact s) : Role (Option ServiceProviderMetadata) S where
  store := store.toJoinStore
  state := s
  link r := r.spec.map fun spec =>
    (buildServiceIdentityKey spec.serviceName spec.version spec.group, spec.providerAppName)
  keyIndex := byServiceProviderServiceKeyIndex
  appIndex := byServiceProviderAppNameIndex
  valid := hvalid
  exact := hexact
  byMesh_eq := store.indexers_eq ▸ rfl
  byKey_eq := by
    rw [store.indexers_eq]
    show some byServiceProviderServiceKey = _
    refine congrArg some (funext fun r => ?_)
    unfold byServiceProviderServiceKey byProvider
    cases r.spec <;> rfl
  byApp_eq := by
    rw [store.indexers_eq]
    show some byServiceProviderAppName = _
    refine congrArg some (funext fun r => ?_)
    unfold byServiceProviderAppName byProvider
    cases r.spec <;> rfl

/-- The consumers. -/
def consumerRole {S : Type} (store : ConsumerStore S) (s : S) (hvalid : store.valid s)
    (hexact : store.exact s) : Role ServiceConsumerMetadata S where
  store := store.toJoinStore
  state := s
  link r := some (buildServiceIdentityKey r.spec.serviceName r.spec.version r.spec.group,
    r.spec.consumerAppName)
  keyIndex := byServiceConsumerServiceKeyIndex
  appIndex := byServiceConsumerAppNameIndex
  valid := hvalid
  exact := hexact
  byMesh_eq := store.indexers_eq ▸ rfl
  byKey_eq := store.indexers_eq ▸ rfl
  byApp_eq := store.indexers_eq ▸ rfl

namespace Role

variable {σ S : Type} (role : Role σ S)

def list (mesh indexName value : String) : Except Failure (List (Resource σ)) :=
  role.store.listByIndexes role.state (equalsAll [(byMeshIndex, mesh), (indexName, value)])

/-- The links of what was listed; metadata without a `Spec` is skipped. -/
def links (found : List (Resource σ)) : List (String × String) := found.filterMap role.link

/-- The application has this role for the service. -/
def Has (mesh serviceKey app : String) : Prop :=
  ∃ r ∈ (role.store.stored role.state).items, r.mesh = mesh ∧ role.link r = some (serviceKey, app)

/-- The loops of `GraphApplications`: for each link of the application, those in the other role for
the same service. A query that fails is skipped. -/
def neighbours (mesh : String) (edge : String → String → GraphEdge)
    (own : List (String × String)) : List GraphEdge :=
  own.flatMap fun l =>
    match role.list mesh role.keyIndex l.1 with
    | .error _ => []
    | .ok items => (role.links items).map fun other => edge l.2 other.2

end Role

/-! ## The services -/

section Services

variable {P C : Type} (providers : Role (Option ServiceProviderMetadata) P)
  (consumers : Role ServiceConsumerMetadata C)

def graphServices (order order' : RangeOrder) (mesh serviceName version group : String) :
    Except Failure GraphData :=
  let serviceKey := buildServiceIdentityKey serviceName version group
  match providers.list mesh providers.keyIndex serviceKey with
  | .error _ => .error (.err "[InternalError], get service providers failed, please try again")
  | .ok [] => .error (.err "[NotFoundError], no providers found for this service")
  | .ok (first :: rest) =>
    match consumers.list mesh consumers.keyIndex serviceKey with
    | .error _ => .error (.err "[InternalError], get service consumers failed, please try again")
    | .ok found =>
      .ok (serviceGraph order order' serviceKey
        (firstBy id ((providers.links (first :: rest)).map Prod.snd))
        (firstBy id ((consumers.links found).map Prod.snd)))

def graphApplications (mesh appName : String) : Except Failure GraphData := do
  let providerServiceList ← providers.list mesh providers.appIndex appName
  let consumerServiceList ← consumers.list mesh consumers.appIndex appName
  let callers := consumers.neighbours mesh (fun provider consumer => ⟨consumer, provider, none⟩)
    (providers.links providerServiceList)
  let callees := providers.neighbours mesh (⟨·, ·, none⟩) (consumers.links consumerServiceList)
  return applicationGraph appName (firstBy GraphEdge.source callers)
    (firstBy GraphEdge.target callees)

/-- The application `a` consumes some service that `b` provides. -/
def Calls (mesh a b : String) : Prop :=
  ∃ serviceKey, consumers.Has mesh serviceKey a ∧ providers.Has mesh serviceKey b

end Services

/-! ## Queries -/

section FirstBy

variable {α : Type} (key : α → String)

theorem firstBy_spec (items : List α) : (∀ a ∈ firstBy key items, a ∈ items) ∧
    (∀ v, v ∈ (firstBy key items).map key ↔ v ∈ items.map key) ∧
      ((firstBy key items).map key).Nodup := by
  induction items using List.reverseRecOn with
  | nil => simp [firstBy]
  | append_singleton items a ih =>
    obtain ⟨hsub, hkeys, hnodup⟩ := ih
    have hstep : firstBy key (items ++ [a]) = if key a ∈ (firstBy key items).map key then
        firstBy key items else firstBy key items ++ [a] := by
      simp [firstBy, List.foldl_append]
    rw [hstep]
    split_ifs with hmem
    · refine ⟨fun b hb => List.mem_append_left _ (hsub b hb), fun v => ?_, hnodup⟩
      rw [hkeys] at hmem
      grind
    · refine ⟨fun b hb => by grind, fun v => ?_, ?_⟩
      · rw [List.map_append, List.map_append, List.mem_append, List.mem_append, hkeys]
      · rw [List.map_append, List.map_singleton]
        exact List.concat_eq_append ▸ hnodup.concat hmem

/-- Nothing is lost where a key has one item. -/
theorem mem_firstBy {items : List α} {f : String → α} {R : String → Prop} (hf : ∀ v, key (f v) = v)
    (hitems : ∀ a, a ∈ items ↔ ∃ v, R v ∧ a = f v) (a : α) :
    a ∈ firstBy key items ↔ ∃ v, R v ∧ a = f v := by
  obtain ⟨hsub, hkeys, -⟩ := firstBy_spec key items
  rw [← hitems]
  refine ⟨hsub a, fun ha => ?_⟩
  obtain ⟨b, hb, hkey⟩ := List.mem_map.mp ((hkeys (key a)).mpr (List.mem_map_of_mem ha))
  obtain ⟨v, -, rfl⟩ := (hitems a).mp ha
  obtain ⟨w, -, rfl⟩ := (hitems b).mp (hsub b hb)
  rw [hf, hf] at hkey
  rwa [hkey] at hb

end FirstBy

namespace Role

variable {σ S : Type} (role : Role σ S) (mesh : String)

theorem list_spec {indexName : String} {part : String × String → String}
    (hindex : role.store.indexers.lookup indexName =
      some fun r => some ((role.link r).toList.map part)) (value : String) :
    ∃ found, role.list mesh indexName value = .ok found ∧
      (∀ r ∈ found, ∃ l, l ∈ role.links found) ∧
      ∀ l, l ∈ role.links found ↔ part l = value ∧ role.Has mesh l.1 l.2 := by
  obtain ⟨found, hfound, hlisting⟩ :=
    role.store.listByIndexes_mesh role.valid role.exact role.byMesh_eq hindex mesh value
  simp only [Option.getD_some, List.mem_map, Option.mem_toList] at hlisting
  refine ⟨found, hfound, fun r hr => ?_, fun l => ?_⟩
  · obtain ⟨-, -, l, hl, -⟩ := (hlisting.mem_iff r).mp hr
    exact ⟨l, List.mem_filterMap.mpr ⟨r, hr, hl⟩⟩
  simp only [links, Has, List.mem_filterMap, hlisting.mem_iff]
  constructor
  · rintro ⟨r, ⟨hr, hmesh, l', hl', hvalue⟩, hl⟩
    obtain rfl := Option.some.inj (hl'.symm.trans hl)
    exact ⟨hvalue, r, hr, hmesh, hl⟩
  · rintro ⟨hvalue, r, hr, hmesh, hl⟩
    exact ⟨r, ⟨hr, hmesh, l, hl, hvalue⟩, hl⟩

/-- The neighbours of an application whose links are all listed. -/
theorem mem_neighbours {τ T : Type} {other : Role τ T} {appName : String}
    {own : List (String × String)}
    (hown : ∀ l, l ∈ own ↔ l.2 = appName ∧ other.Has mesh l.1 l.2)
    (edge : String → String → GraphEdge) (e : GraphEdge) : e ∈ role.neighbours mesh edge own ↔
      ∃ app, (∃ key, other.Has mesh key appName ∧ role.Has mesh key app) ∧
        e = edge appName app := by
  have hitems (l : String × String) := role.list_spec mesh role.byKey_eq l.1
  unfold neighbours
  rw [List.mem_flatMap]
  constructor
  · rintro ⟨l, hl, he⟩
    obtain ⟨items, hlist, -, hmem⟩ := hitems l
    rw [hlist] at he
    obtain ⟨o, ho, rfl⟩ := List.mem_map.mp he
    obtain ⟨rfl, hother⟩ := (hown l).mp hl
    obtain ⟨hkey, hrole⟩ := (hmem o).mp ho
    exact ⟨o.2, ⟨l.1, hother, hkey ▸ hrole⟩, rfl⟩
  · rintro ⟨app, ⟨key, hother, hrole⟩, rfl⟩
    obtain ⟨items, hlist, -, hmem⟩ := hitems (key, appName)
    refine ⟨(key, appName), (hown _).mpr ⟨rfl, hother⟩, ?_⟩
    rw [hlist]
    exact List.mem_map.mpr ⟨(key, app), (hmem _).mpr ⟨rfl, hrole⟩, rfl⟩

/-- The applications with the role for a service whose links are all listed. -/
theorem apps_spec {serviceKey : String} {links : List (String × String)}
    (hlinks : ∀ l, l ∈ links ↔ l.1 = serviceKey ∧ role.Has mesh l.1 l.2) :
    (∀ app, app ∈ firstBy id (links.map Prod.snd) ↔ role.Has mesh serviceKey app) ∧
      (firstBy id (links.map Prod.snd)).Nodup := by
  obtain ⟨-, hkeys, hnodup⟩ := firstBy_spec id (links.map Prod.snd)
  rw [List.map_id] at hkeys hnodup
  refine ⟨fun app => ?_, hnodup⟩
  rw [hkeys, List.map_id, List.mem_map]
  constructor
  · rintro ⟨l, hl, rfl⟩
    obtain ⟨rfl, h⟩ := (hlinks l).mp hl
    exact h
  · exact fun h => ⟨(serviceKey, app), (hlinks _).mpr ⟨rfl, h⟩, rfl⟩

end Role

/-! ## Results -/

/-- The graph has these edges, which join its nodes, and distinct IDs if and only if `Distinct`. -/
structure GraphData.Draws (graph : GraphData) (IsEdge : GraphEdge → Prop) (Distinct : Prop) :
    Prop where
  edges : ∀ e, e ∈ graph.edges ↔ IsEdge e
  joined : ∀ e ∈ graph.edges, e.source ∈ graph.ids ∧ e.target ∈ graph.ids
  distinct : graph.ids.Nodup ↔ Distinct

/-- The edges of a service with its providers and consumers. -/
def IsServiceEdge (serviceKey : String) (Provider Consumer : String → Prop) (e : GraphEdge) :
    Prop :=
  (∃ app, Provider app ∧ e = ⟨serviceKey, app, some "provides"⟩) ∨
    ∃ app, Consumer app ∧ e = ⟨app, serviceKey, some "consumes"⟩

section ServiceGraph

variable (order order' : RangeOrder) (serviceKey : String)

/-- Each application of a role has one edge. -/
theorem nodup_serviceGraph_edges {providerApps consumerApps : List String}
    (hproviders : providerApps.Nodup) (hconsumers : consumerApps.Nodup) :
    (serviceGraph order order' serviceKey providerApps consumerApps).edges.Nodup := by
  have hvisit (order : RangeOrder) {apps : List String} (happs : apps.Nodup) :
      (order.visit apps).Nodup := (order.perm apps).nodup_iff.mpr happs
  refine List.nodup_append'.mpr ⟨?_, ?_, ?_⟩
  · exact (hvisit order hproviders).map fun a b h => congrArg GraphEdge.target h
  · exact (hvisit order' hconsumers).map fun a b h => congrArg GraphEdge.source h
  · rintro e he he'
    obtain ⟨a, -, rfl⟩ := List.mem_map.mp he
    obtain ⟨b, -, h⟩ := List.mem_map.mp he'
    exact absurd (congrArg GraphEdge.type h) (by simp)

theorem serviceGraph_draws {serviceKey : String}
    {providerApps consumerApps : List String} {Provider Consumer : String → Prop}
    (hprovider : ∀ app, app ∈ providerApps ↔ Provider app) (hproviders : providerApps.Nodup)
    (hconsumer : ∀ app, app ∈ consumerApps ↔ Consumer app) (hconsumers : consumerApps.Nodup) :
    (serviceGraph order order' serviceKey providerApps consumerApps).Draws
      (IsServiceEdge serviceKey Provider Consumer) (¬ Provider serviceKey ∧ ¬ Consumer serviceKey ∧
        ∀ app, Provider app → ¬ Consumer app) := by
  have hids : (serviceGraph order order' serviceKey providerApps consumerApps).ids =
      providerApps ++ serviceKey :: consumerApps := by
    simp [serviceGraph, GraphData.ids, applicationNode, Function.comp_def]
  refine ⟨fun e => ?_, fun e he => ?_, ?_⟩
  · simp only [IsServiceEdge, serviceGraph, List.mem_append, List.mem_map, (order.perm _).mem_iff,
      (order'.perm _).mem_iff, hprovider, hconsumer, @eq_comm _ e]
  · simp only [serviceGraph, List.mem_append, List.mem_map, (order.perm _).mem_iff,
      (order'.perm _).mem_iff] at he
    rw [hids]
    rcases he with ⟨app, happ, rfl⟩ | ⟨app, happ, rfl⟩ <;> simp [happ]
  · rw [hids, List.nodup_append', List.nodup_cons, hconsumer]
    simp only [hproviders, hconsumers, true_and, and_true, List.Disjoint, List.mem_cons, hprovider,
      hconsumer]
    grind

end ServiceGraph

theorem applicationGraph_draws {appName : String} {callers callees : List GraphEdge}
    {Call : String → String → Prop}
    (hcaller : ∀ e, e ∈ callers ↔ ∃ app, Call app appName ∧ e = ⟨app, appName, none⟩)
    (hcallers : (callers.map GraphEdge.source).Nodup)
    (hcallee : ∀ e, e ∈ callees ↔ ∃ app, Call appName app ∧ e = ⟨appName, app, none⟩)
    (hcallees : (callees.map GraphEdge.target).Nodup) :
    (applicationGraph appName callers callees).Draws (fun e => e.type = none ∧
        (e.source = appName ∨ e.target = appName) ∧ Call e.source e.target)
      (∀ app, Call app appName → ¬ Call appName app) := by
  have hids : (applicationGraph appName callers callees).ids =
      appName :: (callers.map GraphEdge.source ++ callees.map GraphEdge.target) := by
    simp [applicationGraph, GraphData.ids, applicationNode, Function.comp_def]
  have hsource (app : String) : app ∈ callers.map GraphEdge.source ↔ Call app appName := by
    simp [hcaller]
  have htarget (app : String) : app ∈ callees.map GraphEdge.target ↔ Call appName app := by
    simp [hcallee]
  refine ⟨fun e => ?_, fun e he => ?_, ?_⟩
  · obtain ⟨source, target, type⟩ := e
    simp only [applicationGraph, List.mem_append, hcaller, hcallee, GraphEdge.mk.injEq]
    grind
  · rw [hids]
    rcases List.mem_append.mp he with he | he
    · obtain ⟨app, happ, rfl⟩ := (hcaller e).mp he
      simp [hsource, happ]
    · obtain ⟨app, happ, rfl⟩ := (hcallee e).mp he
      simp [htarget, happ]
  · rw [hids, List.nodup_cons, List.nodup_append', List.mem_append, hsource, htarget, not_or]
    simp only [hcallers, hcallees, true_and, List.Disjoint, hsource, htarget]
    exact ⟨fun h => h.2, fun h => ⟨⟨fun hself => h _ hself hself, fun hself => h _ hself hself⟩, h⟩⟩

section Results

variable {P C : Type} (providers : Role (Option ServiceProviderMetadata) P)
  (consumers : Role ServiceConsumerMetadata C) (mesh : String)

/-- The graph of an application has an edge for each call from it or to it. Its IDs are distinct
where no application both calls it and is called by it. -/
theorem graphApplications_exact (appName : String) :
    ∃ graph, graphApplications providers consumers mesh appName = .ok graph ∧
      graph.Draws (fun e => e.type = none ∧ (e.source = appName ∨ e.target = appName) ∧
          Calls providers consumers mesh e.source e.target)
        (∀ app, Calls providers consumers mesh app appName →
          ¬ Calls providers consumers mesh appName app) := by
  obtain ⟨provided, hprovided, -, hown⟩ := providers.list_spec mesh providers.byApp_eq appName
  obtain ⟨consumed, hconsumed, -, hown'⟩ := consumers.list_spec mesh consumers.byApp_eq appName
  have hcaller := mem_firstBy GraphEdge.source (fun _ => rfl)
    (consumers.mem_neighbours mesh hown fun provider consumer => ⟨consumer, provider, none⟩)
  have hcallee := mem_firstBy GraphEdge.target (fun _ => rfl)
    (providers.mem_neighbours mesh hown' (⟨·, ·, none⟩))
  refine ⟨_, ?_, applicationGraph_draws (fun e => (hcaller e).trans ?_) (firstBy_spec _ _).2.2
    hcallee (firstBy_spec _ _).2.2⟩
  · unfold graphApplications
    rw [hprovided, hconsumed]
    rfl
  · exact exists_congr fun _ => and_congr_left fun _ => exists_congr fun _ => and_comm

/-- Without a provider there is no graph of a service. With one, the graph has one `provides` edge
for each provider and one `consumes` edge for each consumer, and no others. Its IDs are distinct
where no application is both or is named as the service key. -/
theorem graphServices_exact (order order' : RangeOrder) (serviceName version group : String) :
    let serviceKey := buildServiceIdentityKey serviceName version group
    let Provider := providers.Has mesh serviceKey
    let Consumer := consumers.Has mesh serviceKey
    let result := graphServices providers consumers order order' mesh serviceName version group
    (∀ app, ¬ Provider app) ∧
        result = .error (.err "[NotFoundError], no providers found for this service") ∨
      (∃ app, Provider app) ∧ ∃ graph, result = .ok graph ∧ graph.edges.Nodup ∧
        graph.Draws (IsServiceEdge serviceKey Provider Consumer) (¬ Provider serviceKey ∧
          ¬ Consumer serviceKey ∧ ∀ app, Provider app → ¬ Consumer app) := by
  intro serviceKey Provider Consumer result
  obtain ⟨found, hfound, hlinked, hlinks⟩ := providers.list_spec mesh providers.byKey_eq serviceKey
  obtain ⟨found', hfound', -, hlinks'⟩ := consumers.list_spec mesh consumers.byKey_eq serviceKey
  cases found with
  | nil =>
    refine .inl ⟨fun app happ => ?_, ?_⟩
    · exact absurd ((hlinks (serviceKey, app)).mpr ⟨rfl, happ⟩) List.not_mem_nil
    · dsimp only [result, graphServices]
      rw [hfound]
  | cons first rest =>
    obtain ⟨l, hl⟩ := hlinked first List.mem_cons_self
    obtain ⟨hkey, hprovides⟩ := (hlinks l).mp hl
    rw [hkey] at hprovides
    obtain ⟨happs, hnodup⟩ := providers.apps_spec mesh hlinks
    obtain ⟨happs', hnodup'⟩ := consumers.apps_spec mesh hlinks'
    refine .inr ⟨⟨l.2, hprovides⟩, _, ?_, nodup_serviceGraph_edges order order' serviceKey hnodup
      hnodup', serviceGraph_draws order order' happs hnodup happs' hnodup'⟩
    dsimp only [result, graphServices]
    rw [hfound]
    rw [hfound']

end Results

/-! ## A sample -/

/-- The application `shop` provides the service, in the memory store. -/
def sampleProviders := providerRole memoryProviderStore
  (memoryProviderStore.add (Memory.init providerIndexers) ⟨serviceProviderMetadataKind, "mesh",
    "Greeter:1::shop", some ⟨"Greeter", "shop", "1", "", [], ∅, []⟩⟩).2 rfl trivial

/-- An order of the loops over sets. -/
def sampleOrder : RangeOrder := ⟨List.reverse, List.reverse_perm⟩

/-- The application `web` consumes it. -/
def sampleConsumers := consumerRole memoryConsumerStore
  (memoryConsumerStore.add (Memory.init consumerIndexers) ⟨serviceConsumerMetadataKind, "mesh",
    "Greeter:1::web", ⟨"Greeter", "web", "1", "", ∅⟩⟩).2 rfl trivial

theorem sample_has : sampleProviders.Has "mesh" (buildServiceIdentityKey "Greeter" "1" "") "shop" ∧
    sampleConsumers.Has "mesh" (buildServiceIdentityKey "Greeter" "1" "") "web" :=
  ⟨⟨_, List.mem_singleton.mpr rfl, rfl, rfl⟩, ⟨_, List.mem_singleton.mpr rfl, rfl, rfl⟩⟩

/-- The graph of the service has its two edges. -/
theorem graphServices_exact_sample :
    ∃ graph, graphServices sampleProviders sampleConsumers ⟨id, .refl⟩ sampleOrder "mesh" "Greeter"
        "1" "" = .ok graph ∧ graph.edges.Nodup ∧
      ⟨buildServiceIdentityKey "Greeter" "1" "", "shop", some "provides"⟩ ∈ graph.edges ∧
      ⟨"web", buildServiceIdentityKey "Greeter" "1" "", some "consumes"⟩ ∈ graph.edges := by
  rcases graphServices_exact sampleProviders sampleConsumers "mesh" ⟨id, .refl⟩ sampleOrder
    "Greeter" "1" "" with ⟨hnone, -⟩ | ⟨-, graph, hgraph, hnodup, h⟩
  · exact absurd sample_has.1 (hnone "shop")
  · exact ⟨graph, hgraph, hnodup, (h.edges _).mpr (.inl ⟨"shop", sample_has.1, rfl⟩),
      (h.edges _).mpr (.inr ⟨"web", sample_has.2, rfl⟩)⟩

/-- The graph of the application `web` has its call of `shop`. -/
theorem graphApplications_exact_sample :
    ∃ graph, graphApplications sampleProviders sampleConsumers "mesh" "web" = .ok graph ∧
      ⟨"web", "shop", none⟩ ∈ graph.edges := by
  obtain ⟨graph, hgraph, h⟩ :=
    graphApplications_exact sampleProviders sampleConsumers "mesh" "web"
  exact ⟨graph, hgraph, (h.edges _).mpr ⟨rfl, .inl rfl, _, sample_has.2, sample_has.1⟩⟩

end DubboAdmin.Console.Graph
