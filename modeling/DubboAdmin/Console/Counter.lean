import DubboAdmin.Lib.Tally
import DubboAdmin.Instances.Lifecycle

/-!
# The counters of the console

The counter manager (`pkg/console/counter`) counts instances by mesh and by a key of theirs, from
the instance events that it receives. A counter is a grouped tally (`Lib/Tally.lean`), and what it
should count is the multiset of the meshes and keys of the stored instances (`tallied`).

It follows the store as long as no instance changes its keys between its events: a merge is no event
at all, and the events of a clearing carry the cleared instance only. `Effect` says once what
processing an event can do to the store where the keys stay, and `Exact.effect` that the counters
follow.
-/

namespace DubboAdmin.Console

open Strings Controller Instances

variable {S R : Type}

/-! ## Counters -/

/-- The counters of the manager. -/
inductive CounterType where
  /-- `ProtocolCounter`. -/
  | protocol
  /-- `ReleaseCounter`. -/
  | release
  /-- `DiscoveryCounter`. -/
  | discovery
deriving DecidableEq, Repr

/-- The key under which an instance counts. -/
abbrev FieldExtractor := InstanceResource → String

/-- The group of a counter. -/
def groupName (group : String) : String := if group = "" then "default" else group

def normalizeDistributionKey (key : String) : String := if key = "" then "unknown" else key

/-- `Counter`: the counts by group. -/
abbrev Counter := Tally String

def Counter.increment (c : Counter) (group : String) : Counter :=
  Tally.increment c (groupName group)

def Counter.decrement (c : Counter) (group : String) : Counter :=
  Tally.decrement c (groupName group)

def Counter.get (c : Counter) : ℤ := Tally.sum c

def Counter.getByGroup (c : Counter) (group : String) : ℤ := (c.lookup (groupName group)).getD 0

/-- `DistributionCounter`: the counts by group and key. -/
abbrev DistributionCounter := GroupedTally String String

def DistributionCounter.increment (c : DistributionCounter) (group key : String) :
    DistributionCounter :=
  GroupedTally.increment c (groupName group) (normalizeDistributionKey key)

def DistributionCounter.decrement (c : DistributionCounter) (group key : String) :
    DistributionCounter :=
  GroupedTally.decrement c (groupName group) (normalizeDistributionKey key)

def DistributionCounter.getAll (c : DistributionCounter) : Tally String := GroupedTally.total c

def DistributionCounter.getByGroup (c : DistributionCounter) (group : String) : Tally String :=
  GroupedTally.group c (groupName group)

/-! ## The manager -/

/-- `counterManager`. A configuration of a kind refers to the counter of its metric. -/
structure CounterManager where
  simpleCounters : AList fun _ : String => Counter
  distributionConfigs : AList fun _ : String => AList fun _ : CounterType => FieldExtractor
  distributionByType : AList fun _ : CounterType => DistributionCounter
  isLeader : Option Bool

def instanceProtocolKey : FieldExtractor := fun res => (res.spec.spec.map Instance.protocol).getD ""

def instanceReleaseKey : FieldExtractor :=
  fun res => (res.spec.spec.map Instance.releaseVersion).getD ""

def instanceMeshKey : FieldExtractor := fun res => res.mesh

namespace CounterManager

def registerSimpleCounter (cm : CounterManager) (kind : String) : CounterManager :=
  if kind = "" ∨ kind ∈ cm.simpleCounters then cm
  else { cm with simpleCounters := cm.simpleCounters.insert kind ∅ }

def registerDistributionCounter (cm : CounterManager) (kind : String) (metric : CounterType)
    (extractor : FieldExtractor) : CounterManager :=
  if kind = "" then cm
  else
    { cm with
      distributionByType :=
        if metric ∈ cm.distributionByType then cm.distributionByType
        else cm.distributionByType.insert metric ∅
      distributionConfigs := cm.distributionConfigs.insert kind
        (((cm.distributionConfigs.lookup kind).getD ∅).insert metric extractor) }

def newCounterManager : CounterManager :=
  (⟨∅, ∅, ∅, none⟩ : CounterManager)
    |>.registerSimpleCounter "Application"
    |>.registerSimpleCounter "ServiceProviderMetadata"
    |>.registerSimpleCounter instanceKind
    |>.registerDistributionCounter instanceKind .protocol instanceProtocolKey
    |>.registerDistributionCounter instanceKind .release instanceReleaseKey
    |>.registerDistributionCounter instanceKind .discovery instanceMeshKey

def distribution (cm : CounterManager) (metric : CounterType) : Tally String :=
  match cm.distributionByType.lookup metric with
  | none => ∅
  | some counter => counter.getAll

def distributionByMesh (cm : CounterManager) (metric : CounterType) (mesh : String) :
    Tally String :=
  match cm.distributionByType.lookup metric with
  | none => ∅
  | some counter => counter.getByGroup (groupName mesh)

def count (cm : CounterManager) (kind : String) : ℤ :=
  match cm.simpleCounters.lookup kind with
  | none => 0
  | some counter => counter.get

def countByMesh (cm : CounterManager) (kind mesh : String) : ℤ :=
  match cm.simpleCounters.lookup kind with
  | none => 0
  | some counter => counter.getByGroup (groupName mesh)

end CounterManager

def extractMeshName : Option InstanceResource → String
  | none => "default"
  | some res => if res.mesh = "" then "default" else res.mesh

/-- The mesh that an event counts for: that of the new object, or of the old one without it. -/
def eventMesh (event : ResourceChangedEvent (Labelled Instance)) : String :=
  match event.newObj with
  | none => extractMeshName event.oldObj
  | some newObj => extractMeshName (some newObj)

def processSimpleCounter (event : ResourceChangedEvent (Labelled Instance)) (counter : Counter) :
    Counter :=
  let mesh := eventMesh event
  match event.typ with
  | .added => counter.increment mesh
  | .sync | .replaced => if event.oldObj = none then counter.increment mesh else counter
  | .deleted => counter.decrement mesh
  | .updated => counter

def extractFrom (extractor : FieldExtractor) (res : Option InstanceResource) : String :=
  (res.map extractor).getD ""

/-- `update`. -/
def updateCounter (extractor : FieldExtractor) (oldObj newObj : Option InstanceResource)
    (counter : DistributionCounter) : DistributionCounter :=
  let oldKey := normalizeDistributionKey (extractFrom extractor oldObj)
  let newKey := normalizeDistributionKey (extractFrom extractor newObj)
  let oldMesh := extractMeshName oldObj
  let newMesh := extractMeshName newObj
  if oldKey = newKey ∧ oldMesh = newMesh then counter
  else
    let counter := if oldObj = none then counter else counter.decrement oldMesh oldKey
    if newObj = none then counter else counter.increment newMesh newKey

def processDistributionCounter (extractor : FieldExtractor)
    (event : ResourceChangedEvent (Labelled Instance)) (counter : DistributionCounter) :
    DistributionCounter :=
  let mesh := eventMesh event
  match event.typ with
  | .added => counter.increment mesh (normalizeDistributionKey (extractFrom extractor event.newObj))
  | .sync | .replaced =>
    if event.oldObj = none then
      counter.increment mesh (normalizeDistributionKey (extractFrom extractor event.newObj))
    else updateCounter extractor event.oldObj event.newObj counter
  | .updated => updateCounter extractor event.oldObj event.newObj counter
  | .deleted =>
    counter.decrement mesh (normalizeDistributionKey (extractFrom extractor event.oldObj))

def CounterManager.handleEvent (cm : CounterManager) (kind : String)
    (event : ResourceChangedEvent (Labelled Instance)) : CounterManager :=
  if cm.isLeader = some false then cm
  else
    { cm with
      simpleCounters := modify cm.simpleCounters kind (processSimpleCounter event)
      distributionByType := ((cm.distributionConfigs.lookup kind).getD ∅).entries.foldl
        (fun counters cfg => modify counters cfg.1 (processDistributionCounter cfg.2 event))
        cm.distributionByType }

/-! ## What the counters should count -/

/-- The group and the key under which an instance is counted. -/
def countedAs (extractor : FieldExtractor) (r : InstanceResource) : String × String :=
  (extractMeshName (some r), normalizeDistributionKey (extractor r))

/-- The groups and keys of the stored instances. -/
def tallied (extractor : FieldExtractor) (contents : Contents (Labelled Instance)) :
    Multiset (String × String) :=
  (contents.items.map (countedAs extractor) : List (String × String))

/-- The number of stored instances with a normalized key. -/
def histogram (extractor : FieldExtractor) (contents : Contents (Labelled Instance))
    (key : String) : ℕ :=
  contents.items.countP fun r => normalizeDistributionKey (extractor r) = key

theorem count_tallied (extractor : FieldExtractor) (contents : Contents (Labelled Instance))
    (key : String) :
    ((tallied extractor contents).map Prod.snd).count key = histogram extractor contents key := by
  unfold tallied histogram
  rw [Multiset.map_coe, Multiset.coe_count, List.map_map, List.count, List.countP_map]
  refine List.countP_congr fun r _ => ?_
  simp [countedAs]

variable {extractor : FieldExtractor} {contents : Contents (Labelled Instance)}
  {inst : InstanceResource}

theorem tallied_put_of_absent (hnew : contents.get? inst.resourceKey = none) :
    tallied extractor (contents.put inst) =
      countedAs extractor inst ::ₘ tallied extractor contents :=
  Keyed.coe_map_put_of_absent hnew

variable {old : InstanceResource}

theorem tallied_put_of_same (hold : contents.get? inst.resourceKey = some old)
    (hsame : countedAs extractor inst = countedAs extractor old) :
    tallied extractor (contents.put inst) = tallied extractor contents := by
  unfold tallied
  rw [Keyed.map_items_put hold hsame]

theorem tallied_erase {key : String} (hold : contents.get? key = some old) :
    tallied extractor (contents.erase key) =
      (tallied extractor contents).erase (countedAs extractor old) :=
  Keyed.coe_map_erase hold

/-! ## What a counter makes of an event -/

@[simp]
theorem groupName_extractMeshName (res : Option InstanceResource) :
    groupName (extractMeshName res) = extractMeshName res := by
  unfold groupName
  rw [if_neg]
  cases res with
  | none => decide
  | some r =>
    unfold extractMeshName
    dsimp only
    split_ifs with hmesh
    · decide
    · exact hmesh

@[simp]
theorem normalizeDistributionKey_idem (key : String) :
    normalizeDistributionKey (normalizeDistributionKey key) = normalizeDistributionKey key := by
  unfold normalizeDistributionKey
  split_ifs with hkey hunknown
  · exact absurd hunknown (by decide)
  · rfl
  · rfl

section Events

variable {extractor : FieldExtractor} {counter : DistributionCounter}
  {m : Multiset (String × String)}

theorem counts_added (h : GroupedTally.Counts counter m) (inst : InstanceResource) :
    GroupedTally.Counts
      (processDistributionCounter extractor ⟨.added, none, some inst⟩ counter)
      (countedAs extractor inst ::ₘ m) := by
  have hcounts := h.increment (extractMeshName (some inst))
    (normalizeDistributionKey (extractor inst))
  simpa [processDistributionCounter, DistributionCounter.increment, eventMesh, extractFrom,
    countedAs] using hcounts

theorem counts_updated (h : GroupedTally.Counts counter m) (inst : InstanceResource) :
    GroupedTally.Counts
      (processDistributionCounter extractor ⟨.updated, some inst, some inst⟩ counter) m := by
  simpa [processDistributionCounter, updateCounter] using h

theorem counts_deleted (h : GroupedTally.Counts counter m) (inst : InstanceResource) :
    GroupedTally.Counts
      (processDistributionCounter extractor ⟨.deleted, some inst, none⟩ counter)
      (m.erase (countedAs extractor inst)) := by
  have hcounts := h.decrement (extractMeshName (some inst))
    (normalizeDistributionKey (extractor inst))
  simpa [processDistributionCounter, DistributionCounter.decrement, eventMesh, extractFrom,
    countedAs] using hcounts

variable {simple : Counter} {meshes : Multiset String}

theorem simple_added (h : Tally.Counts simple fun mesh => meshes.count mesh)
    (inst : InstanceResource) :
    Tally.Counts (processSimpleCounter ⟨.added, none, some inst⟩ simple)
      fun mesh => (extractMeshName (some inst) ::ₘ meshes).count mesh := by
  have hcounts := h.cons Function.injective_id (extractMeshName (some inst))
  simpa [processSimpleCounter, Counter.increment, eventMesh] using hcounts

theorem simple_deleted (h : Tally.Counts simple fun mesh => meshes.count mesh)
    (inst : InstanceResource) :
    Tally.Counts (processSimpleCounter ⟨.deleted, some inst, none⟩ simple)
      fun mesh => (meshes.erase (extractMeshName (some inst))).count mesh := by
  have hcounts := h.erase Function.injective_id (extractMeshName (some inst))
  simpa [processSimpleCounter, Counter.decrement, eventMesh] using hcounts

end Events

theorem lookup_simple_handleEvent {cm : CounterManager} (hleader : cm.isLeader ≠ some false)
    (kind : String) (event : ResourceChangedEvent (Labelled Instance)) :
    (cm.handleEvent kind event).simpleCounters.lookup kind =
      (cm.simpleCounters.lookup kind).map (processSimpleCounter event) := by
  unfold CounterManager.handleEvent
  rw [if_neg hleader]
  exact lookup_modify_self _ _ _

/-- Each metric of the instances has its counter updated by an event. -/
theorem lookup_handleEvent {cm : CounterManager} (hleader : cm.isLeader ≠ some false)
    {configs : AList fun _ : CounterType => FieldExtractor}
    (hconfigs : cm.distributionConfigs.lookup instanceKind = some configs) {metric : CounterType}
    (hextractor : configs.lookup metric = some extractor)
    (event : ResourceChangedEvent (Labelled Instance)) :
    (cm.handleEvent instanceKind event).distributionByType.lookup metric =
      (cm.distributionByType.lookup metric).map (processDistributionCounter extractor event) := by
  unfold CounterManager.handleEvent
  rw [if_neg hleader, hconfigs]
  dsimp only [Option.getD_some]
  rw [lookup_foldl_modify configs.nodupKeys,
    show configs.entries.dlookup metric = some extractor from hextractor]

theorem isLeader_handleEvent (cm : CounterManager) (kind : String)
    (event : ResourceChangedEvent (Labelled Instance)) :
    (cm.handleEvent kind event).isLeader = cm.isLeader := by
  unfold CounterManager.handleEvent
  split_ifs <;> rfl

/-! ## The number of instances -/

/-- The meshes of the stored instances, as the counter groups them. -/
def storedMeshes (contents : Contents (Labelled Instance)) : Multiset String :=
  (contents.items.map fun r => extractMeshName (some r) : List String)

theorem card_storedMeshes (contents : Contents (Labelled Instance)) :
    (storedMeshes contents).card = contents.items.length := by
  simp [storedMeshes]

theorem storedMeshes_put_of_same (hold : contents.get? inst.resourceKey = some old)
    (hmesh : inst.mesh = old.mesh) : storedMeshes (contents.put inst) = storedMeshes contents := by
  unfold storedMeshes
  rw [Keyed.map_items_put hold]
  unfold extractMeshName
  dsimp only
  rw [hmesh]

/-- The manager counts, and has counted the instances of these meshes. -/
structure CountsMeshes (cm : CounterManager) (meshes : Multiset String) : Prop where
  leader : cm.isLeader ≠ some false
  simple : ∃ counter, cm.simpleCounters.lookup instanceKind = some counter ∧
    Tally.Counts counter fun mesh => meshes.count mesh

namespace CountsMeshes

variable {cm : CounterManager} {meshes : Multiset String}

theorem count_eq (h : CountsMeshes cm meshes) : cm.count instanceKind = meshes.card := by
  obtain ⟨counter, hlookup, hcounts⟩ := h.simple
  unfold CounterManager.count
  rw [hlookup]
  exact hcounts.sum

theorem countByMesh_eq (h : CountsMeshes cm meshes) (mesh : String) :
    cm.countByMesh instanceKind mesh = meshes.count (groupName (groupName mesh)) := by
  obtain ⟨counter, hlookup, hcounts⟩ := h.simple
  unfold CounterManager.countByMesh
  rw [hlookup]
  show (counter.lookup (groupName (groupName mesh))).getD 0 = _
  rw [hcounts, Tally.getD_entry]

theorem handleEvent (h : CountsMeshes cm meshes) {event : ResourceChangedEvent (Labelled Instance)}
    {meshes' : Multiset String}
    (hcounts : ∀ counter : Counter, (Tally.Counts counter fun mesh => meshes.count mesh) →
      Tally.Counts (processSimpleCounter event counter) fun mesh => meshes'.count mesh) :
    CountsMeshes (cm.handleEvent instanceKind event) meshes' where
  leader := by
    rw [isLeader_handleEvent]
    exact h.leader
  simple := by
    obtain ⟨counter, hlookup, hcounter⟩ := h.simple
    refine ⟨_, ?_, hcounts counter hcounter⟩
    rw [lookup_simple_handleEvent h.leader, hlookup]
    rfl

variable {contents : Contents (Labelled Instance)} {inst : InstanceResource}

theorem added (h : CountsMeshes cm (storedMeshes contents))
    (hnew : contents.get? inst.resourceKey = none) :
    CountsMeshes (cm.handleEvent instanceKind ⟨.added, none, some inst⟩)
      (storedMeshes (contents.put inst)) := by
  have hput : storedMeshes (contents.put inst) =
      extractMeshName (some inst) ::ₘ storedMeshes contents := Keyed.coe_map_put_of_absent hnew
  rw [hput]
  exact h.handleEvent fun counter hcounter => simple_added hcounter inst

theorem updated (h : CountsMeshes cm (storedMeshes contents))
    {oldObj newObj : Option InstanceResource} {old : InstanceResource}
    (hold : contents.get? inst.resourceKey = some old) (hmesh : inst.mesh = old.mesh) :
    CountsMeshes (cm.handleEvent instanceKind ⟨.updated, oldObj, newObj⟩)
      (storedMeshes (contents.put inst)) := by
  rw [storedMeshes_put_of_same hold hmesh]
  exact h.handleEvent fun counter hcounter => hcounter

/-- An instance that was deleted from a store, whichever instance of its mesh the event carries. -/
theorem deleted (h : CountsMeshes cm (storedMeshes contents)) {key : String}
    {old : InstanceResource} (hold : contents.get? key = some old) (hmesh : inst.mesh = old.mesh) :
    CountsMeshes (cm.handleEvent instanceKind ⟨.deleted, some inst, none⟩)
      (storedMeshes (contents.erase key)) := by
  have hsame : extractMeshName (some inst) = extractMeshName (some old) := by
    unfold extractMeshName
    dsimp only
    rw [hmesh]
  have herase : storedMeshes (contents.erase key) =
      (storedMeshes contents).erase (extractMeshName (some inst)) := by
    rw [hsame]
    exact Keyed.coe_map_erase hold
  rw [herase]
  exact h.handleEvent fun counter hcounter => simple_deleted hcounter inst

end CountsMeshes

/-! ## The store and the counters -/

/-- The instance store, and the manager that is bound to its events. -/
structure CountedStore (S : Type) where
  store : S
  counters : CounterManager

/-- An event for one of the subscribers. -/
inductive InstanceAction (R : Type) where
  /-- An RPC instance event, processed at `now` with the runtime store in the state `rt`. -/
  | rpc (rt : R) (now : String) (event : ResourceChangedEvent (Option RPCInstance))
  | runtime (event : ResourceChangedEvent (Labelled RuntimeInstance))

/-- What processing an event leaves in the store, and the instance events that it sends. -/
def processAction (sub : RPCInstanceEventSubscriber S R) (s : S) :
    InstanceAction R → InstanceWorld S
  | .rpc rt now event => (sub.processEvent rt now ⟨s, []⟩ event).2
  | .runtime event =>
    (RuntimeInstanceEventSubscriber.processEvent ⟨sub.instanceStore⟩ ⟨s, []⟩ event).2

/-- Delivering instance events in order. -/
def deliver (events : List (ResourceChangedEvent (Labelled Instance))) (cm : CounterManager) :
    CounterManager :=
  events.foldl (fun cm event => cm.handleEvent instanceKind event) cm

/-- Processing an event, and delivering what it sends. -/
def CountedStore.next (sub : RPCInstanceEventSubscriber S R) (x : CountedStore S)
    (a : InstanceAction R) : CountedStore S :=
  let w := processAction sub x.store a
  ⟨w.store, deliver w.events x.counters⟩

/-- An event is processed, and what it sends is delivered before the next one. -/
def CountStep (sub : RPCInstanceEventSubscriber S R) (x : CountedStore S) (a : InstanceAction R)
    (x' : CountedStore S) : Prop :=
  x' = x.next sub a

/-- An empty store, and a new manager. -/
structure Fresh (st : InstanceStore S) (x : CountedStore S) : Prop where
  valid : st.valid x.store
  exact : st.exact x.store
  empty : (st.stored x.store).items = []
  counters : x.counters = CounterManager.newCounterManager

/-- The distributions of protocols and releases are the histograms of what is stored. -/
def DistributionsExact (st : InstanceStore S) (x : CountedStore S) : Prop :=
  ∀ key,
    (x.counters.distribution .protocol).lookup key =
      Tally.entry (histogram instanceProtocolKey (st.stored x.store) key) ∧
    (x.counters.distribution .release).lookup key =
      Tally.entry (histogram instanceReleaseKey (st.stored x.store) key)

/-! ## What processing an event does where the keys stay -/

/-- An instance as the subscribers store it. -/
structure WellNamed (r : InstanceResource) : Prop where
  kind_eq : r.kind = instanceKind
  mesh_simple : '/' ∉ r.mesh.toList
  named : ∃ spec, r.spec.spec = some spec ∧ spec.name = r.name ∧ isBlank spec.name = false

/-- The instance stays under its key. -/
structure SamePlace (old inst : InstanceResource) : Prop where
  mesh_eq : inst.mesh = old.mesh
  name_eq : inst.name = old.name

/-- The instance stays under its key, and in its groups. -/
structure SameKeys (old inst : InstanceResource) : Prop extends SamePlace old inst where
  protocol_eq : normalizeDistributionKey (instanceProtocolKey inst) =
    normalizeDistributionKey (instanceProtocolKey old)
  release_eq : normalizeDistributionKey (instanceReleaseKey inst) =
    normalizeDistributionKey (instanceReleaseKey old)

theorem SamePlace.resourceKey_eq (h : SamePlace old inst) :
    inst.resourceKey = old.resourceKey := by
  unfold Resource.resourceKey
  rw [h.mesh_eq, h.name_eq]

/-- What the metrics read. -/
def extractorOf : CounterType → FieldExtractor
  | .protocol => instanceProtocolKey
  | .release => instanceReleaseKey
  | .discovery => instanceMeshKey

/-- No metric tells the two apart. -/
theorem SameKeys.countedAs_eq (h : SameKeys old inst) (metric : CounterType) :
    countedAs (extractorOf metric) inst = countedAs (extractorOf metric) old := by
  have hmesh : extractMeshName (some inst) = extractMeshName (some old) := by
    unfold extractMeshName
    dsimp only
    rw [h.mesh_eq]
  have hkey : normalizeDistributionKey (extractorOf metric inst) =
      normalizeDistributionKey (extractorOf metric old) := by
    cases metric with
    | protocol => exact h.protocol_eq
    | release => exact h.release_eq
    | discovery => exact congrArg normalizeDistributionKey h.mesh_eq
  unfold countedAs
  rw [hmesh, hkey]

/-- What processing an event does to the store, and the event that it sends. What is stored is
`Named`, and where it overwrites or deletes an instance, the two are the `Same`. -/
inductive EffectOf (Named : InstanceResource → Prop)
    (Same : InstanceResource → InstanceResource → Prop) (st : InstanceStore S) (s : S) :
    InstanceWorld S → Prop
  | skipped : EffectOf Named Same st s ⟨s, []⟩
  /-- An instance is overwritten, without an event. -/
  | merged {old inst : InstanceResource} {s' : S}
      (hold : (st.stored s).get? inst.resourceKey = some old) (hnamed : Named inst)
      (hsame : Same old inst) (hleaves : st.Leaves s ((st.stored s).put inst) s') :
      EffectOf Named Same st s ⟨s', []⟩
  | created {inst : InstanceResource} {s' : S}
      (hnew : (st.stored s).get? inst.resourceKey = none) (hnamed : Named inst)
      (hleaves : st.Leaves s ((st.stored s).put inst) s') :
      EffectOf Named Same st s ⟨s', [⟨.added, none, some inst⟩]⟩
  /-- An instance is overwritten, with an event that carries it twice. -/
  | cleared {old inst : InstanceResource} {s' : S}
      (hold : (st.stored s).get? inst.resourceKey = some old) (hnamed : Named inst)
      (hsame : Same old inst) (hleaves : st.Leaves s ((st.stored s).put inst) s') :
      EffectOf Named Same st s ⟨s', [⟨.updated, some inst, some inst⟩]⟩
  | deleted {old inst : InstanceResource} {s' : S}
      (hold : (st.stored s).get? inst.resourceKey = some old) (hsame : Same old inst)
      (hleaves : st.Leaves s ((st.stored s).erase inst.resourceKey) s') :
      EffectOf Named Same st s ⟨s', [⟨.deleted, some inst, none⟩]⟩

/-- What processing an event does where the keys stay. -/
abbrev Effect (st : InstanceStore S) (s : S) : InstanceWorld S → Prop :=
  EffectOf WellNamed SameKeys st s

/-- Instances of the kind are stored, each under the key of the one that it overwrites. -/
structure Places (Named : InstanceResource → Prop)
    (Same : InstanceResource → InstanceResource → Prop) : Prop where
  kind_eq : ∀ inst, Named inst → inst.kind = instanceKind
  key_eq : ∀ old inst, Same old inst → inst.resourceKey = old.resourceKey

section Sources

variable {st : InstanceStore S} {s : S} {related : Except Failure (Option InstanceResource)}
  {Named : InstanceResource → Prop} {Same : InstanceResource → InstanceResource → Prop}

/-- An upsert, whose merge stays at its place and whose new instance has a new key. -/
theorem upsertSource_effect {merge : InstanceResource → Except Failure InstanceResource}
    {create : Except Failure (Option InstanceResource)} (hvalid : st.valid s)
    (hplaces : Places Named Same) (hfinds : FindsStored st s related)
    (hmerge : ∀ old inst, related = .ok (some old) → merge old = .ok inst →
      Named inst ∧ Same old inst)
    (hcreate : ∀ inst, related = .ok none → create = .ok (some inst) →
      Named inst ∧ (st.stored s).get? inst.resourceKey = none) :
    EffectOf Named Same st s (upsertSource st ⟨s, []⟩ related merge create).2 := by
  obtain ⟨found, rfl, hstored⟩ := hfinds
  cases found with
  | some old =>
    cases hresult : merge old with
    | error e =>
      simp only [upsertSource, hresult]
      exact .skipped
    | ok inst =>
      obtain ⟨hnamed, hsame⟩ := hmerge old inst rfl hresult
      have hold : (st.stored s).get? inst.resourceKey = some old := by
        rw [hplaces.key_eq old inst hsame]
        exact Keyed.get?_key (hstored old rfl)
      obtain ⟨s', heq, hleaves⟩ :=
        upsertSource_merge (w := ⟨s, []⟩) hresult hvalid (hplaces.kind_eq inst hnamed) hold
      rw [heq]
      exact .merged hold hnamed hsame hleaves
  | none =>
    rcases create with e | _ | inst
    · exact .skipped
    · exact .skipped
    · obtain ⟨hnamed, hnew⟩ := hcreate inst rfl rfl
      obtain ⟨s', heq, hleaves⟩ :=
        upsertSource_create (w := ⟨s, []⟩) rfl hvalid (hplaces.kind_eq inst hnamed) hnew
      rw [heq]
      exact .created hnew hnamed hleaves

/-- A delete, whose clearing stays at its place. -/
theorem dropSource_effect {clear : InstanceResource → InstanceResource}
    {hasOtherSource : InstanceResource → Bool} (hvalid : st.valid s)
    (hplaces : Places Named Same) (hfinds : FindsStored st s related)
    (hclear : ∀ old, related = .ok (some old) → Named (clear old) ∧ Same old (clear old)) :
    EffectOf Named Same st s (dropSource st ⟨s, []⟩ related clear hasOtherSource).2 := by
  obtain ⟨found, rfl, hstored⟩ := hfinds
  cases found with
  | none => exact .skipped
  | some old =>
    obtain ⟨hnamed, hsame⟩ := hclear old rfl
    have hold : (st.stored s).get? (clear old).resourceKey = some old := by
      rw [hplaces.key_eq old _ hsame]
      exact Keyed.get?_key (hstored old rfl)
    cases hother : hasOtherSource (clear old) with
    | true =>
      obtain ⟨s', heq, hleaves⟩ :=
        dropSource_clear (w := ⟨s, []⟩) hother hvalid (hplaces.kind_eq _ hnamed) hold
      rw [heq]
      exact .cleared hold hnamed hsame hleaves
    | false =>
      obtain ⟨s', heq, hleaves⟩ := dropSource_delete (w := ⟨s, []⟩) hother hvalid hold
      rw [heq]
      exact .deleted hold hsame hleaves

end Sources

/-! ## The counters follow -/

/-- The part of the invariant that concerns the store. -/
structure Tidy (st : InstanceStore S) (s : S) : Prop where
  valid : st.valid s
  exact : st.exact s
  /-- The stored instances are as the subscribers store them. -/
  named : ∀ r ∈ (st.stored s).items, WellNamed r

/-- The invariant: the store is well formed, and every metric counts what is stored. -/
structure Exact (st : InstanceStore S) (x : CountedStore S) : Prop extends Tidy st x.store where
  leader : x.counters.isLeader ≠ some false
  configs : ∃ configs, x.counters.distributionConfigs.lookup instanceKind = some configs ∧
    ∀ metric, configs.lookup metric = some (extractorOf metric)
  counts : ∀ metric, ∃ counter, x.counters.distributionByType.lookup metric = some counter ∧
    GroupedTally.Counts counter (tallied (extractorOf metric) (st.stored x.store))

section Following

variable {st : InstanceStore S} {x : CountedStore S}

theorem Fresh.exact_counts (h : Fresh st x) : Exact st x where
  valid := h.valid
  exact := h.exact
  named r hr := by
    rw [h.empty] at hr
    exact nomatch hr
  leader := by
    rw [h.counters]
    decide
  configs := by
    rw [h.counters]
    refine ⟨_, rfl, fun metric => ?_⟩
    cases metric <;> rfl
  counts metric := by
    have hnone : tallied (extractorOf metric) (st.stored x.store) = 0 := by
      unfold tallied
      rw [h.empty]
      rfl
    rw [h.counters, hnone]
    refine ⟨∅, ?_, GroupedTally.counts_empty⟩
    cases metric <;> rfl

theorem Exact.distributions (h : Exact st x) : DistributionsExact st x := by
  have hmetric : ∀ metric key, (x.counters.distribution metric).lookup key =
      Tally.entry (histogram (extractorOf metric) (st.stored x.store) key) := by
    intro metric key
    obtain ⟨counter, hlookup, hcounts⟩ := h.counts metric
    unfold CounterManager.distribution
    rw [hlookup, ← count_tallied]
    exact hcounts.total key
  exact fun key => ⟨hmetric .protocol key, hmetric .release key⟩

/-- What a state keeps, apart from the counts. -/
theorem Exact.withStore (h : Exact st x) {s' : S} {contents : Contents (Labelled Instance)}
    {cm : CounterManager} (hleaves : st.Leaves x.store contents s')
    (hnamed : ∀ r ∈ contents.items, WellNamed r) (hleader : cm.isLeader = x.counters.isLeader)
    (hconfigs : cm.distributionConfigs = x.counters.distributionConfigs)
    (hcounts : ∀ metric, ∃ counter, cm.distributionByType.lookup metric = some counter ∧
      GroupedTally.Counts counter (tallied (extractorOf metric) contents)) :
    Exact st ⟨s', cm⟩ where
  valid := hleaves.valid
  exact := hleaves.exact h.exact
  named := by
    rw [hleaves.stored]
    exact hnamed
  leader := by
    rw [hleader]
    exact h.leader
  configs := by
    rw [hconfigs]
    exact h.configs
  counts := by
    rw [hleaves.stored]
    exact hcounts

theorem distributionConfigs_handleEvent (cm : CounterManager) (kind : String)
    (event : ResourceChangedEvent (Labelled Instance)) :
    (cm.handleEvent kind event).distributionConfigs = cm.distributionConfigs := by
  unfold CounterManager.handleEvent
  split_ifs <;> rfl

/-- After one delivered event, which every counter follows. -/
theorem Exact.handleEvent (h : Exact st x) {s' : S} {contents : Contents (Labelled Instance)}
    {event : ResourceChangedEvent (Labelled Instance)} (hleaves : st.Leaves x.store contents s')
    (hnamed : ∀ r ∈ contents.items, WellNamed r) (hcounts : ∀ metric counter,
      GroupedTally.Counts counter (tallied (extractorOf metric) (st.stored x.store)) →
      GroupedTally.Counts (processDistributionCounter (extractorOf metric) event counter)
        (tallied (extractorOf metric) contents)) :
    Exact st ⟨s', x.counters.handleEvent instanceKind event⟩ := by
  refine h.withStore hleaves hnamed (isLeader_handleEvent _ _ _)
    (distributionConfigs_handleEvent _ _ _) fun metric => ?_
  obtain ⟨configs, hconfigs, hextractors⟩ := h.configs
  obtain ⟨counter, hlookup, hcounter⟩ := h.counts metric
  refine ⟨_, ?_, hcounts metric counter hcounter⟩
  rw [lookup_handleEvent h.leader hconfigs (hextractors metric), hlookup]
  rfl

theorem Exact.named_put (h : Exact st x) {inst : InstanceResource} (hnamed : WellNamed inst) :
    ∀ r ∈ ((st.stored x.store).put inst).items, WellNamed r := by
  intro r hr
  rcases Keyed.mem_put.mp hr with rfl | ⟨hr, -⟩
  · exact hnamed
  · exact h.named r hr

/-- The counters follow every effect. -/
theorem Exact.effect (h : Exact st x) {w : InstanceWorld S} (heffect : Effect st x.store w) :
    Exact st ⟨w.store, deliver w.events x.counters⟩ := by
  cases heffect with
  | skipped => exact h
  | @merged old inst s' hold hnamed hsame hleaves =>
    refine h.withStore hleaves (h.named_put hnamed) rfl rfl fun metric => ?_
    rw [tallied_put_of_same hold (hsame.countedAs_eq metric)]
    exact h.counts metric
  | @created inst s' hnew hnamed hleaves =>
    refine h.handleEvent hleaves (h.named_put hnamed) fun metric counter hcounter => ?_
    rw [tallied_put_of_absent hnew]
    exact counts_added hcounter inst
  | @cleared old inst s' hold hnamed hsame hleaves =>
    refine h.handleEvent hleaves (h.named_put hnamed) fun metric counter hcounter => ?_
    rw [tallied_put_of_same hold (hsame.countedAs_eq metric)]
    exact counts_updated hcounter inst
  | @deleted old inst s' hold hsame hleaves =>
    refine h.handleEvent hleaves (fun r hr => h.named r (Keyed.mem_erase.mp hr).1)
      fun metric counter hcounter => ?_
    rw [tallied_erase hold, ← hsame.countedAs_eq metric]
    exact counts_deleted hcounter inst

end Following

/-! ## Events that keep the keys -/

/-- An RPC instance has the name that `ToRPCInstance` gives it, in its resource and in its spec. -/
def NamedAsBuilt (rpcInstanceRes : RPCInstanceResource) : Prop :=
  ∀ spec, rpcInstanceRes.spec = some spec →
    rpcInstanceRes.name = buildInstanceResName spec.appName spec.ip spec.port ∧
      spec.name = rpcInstanceRes.name

/-- An RPC upsert of an instance that is stored brings the protocol and the release that it has. -/
def UpsertKeepsKeys (contents : Contents (Labelled Instance))
    (rpcInstanceRes : RPCInstanceResource) : Prop :=
  ∀ inst spec,
    contents.get? (buildResourceKey rpcInstanceRes.mesh rpcInstanceRes.name) = some inst →
    rpcInstanceRes.spec = some spec →
    normalizeDistributionKey spec.protocol =
        normalizeDistributionKey (instanceProtocolKey inst) ∧
      normalizeDistributionKey spec.releaseVersion =
        normalizeDistributionKey (instanceReleaseKey inst)

/-- An RPC delete of an instance that is stored finds no protocol and no release. -/
def DeleteKeepsKeys (contents : Contents (Labelled Instance))
    (rpcInstanceRes : RPCInstanceResource) : Prop :=
  ∀ inst,
    contents.get? (buildResourceKey rpcInstanceRes.mesh rpcInstanceRes.name) = some inst →
    normalizeDistributionKey (instanceProtocolKey inst) = "unknown" ∧
      normalizeDistributionKey (instanceReleaseKey inst) = "unknown"

/-- The condition on an event in the state before it: names are as the sources build them, in meshes
that are no paths, and the keys of a stored instance are those that it has after the event. -/
def KeepsKeys (st : InstanceStore S) (x : CountedStore S) : InstanceAction R → Prop
  | .rpc _ _ event => match rpcChange event with
    | .error _ => True
    | .ok (.upsert newObj) => checkAttributeEnough newObj = true →
        '/' ∉ newObj.mesh.toList ∧ NamedAsBuilt newObj ∧
          UpsertKeepsKeys (st.stored x.store) newObj
    | .ok (.delete oldObj) => DeleteKeepsKeys (st.stored x.store) oldObj
  | .runtime event => match runtimeChange event with
    | .error _ => True
    | .ok (.upsert newObj) => checkAttributesEnough newObj = true → '/' ∉ newObj.mesh.toList
    | .ok (.delete _) => True

section Keeping

variable {sub : RPCInstanceEventSubscriber S R} {x : CountedStore S}

variable {old inst : InstanceResource}

/-- A runtime merge keeps the keys. -/
theorem mergeRuntime_keeps {rtInstanceRes : RuntimeInstanceResource} (hnamed : WellNamed old)
    (hmerge : mergeRuntimeInstanceIntoInstance rtInstanceRes old = .ok inst) :
    WellNamed inst ∧ SameKeys old inst := by
  obtain ⟨rt, spec, -, hspec, rfl⟩ := mergeRuntimeInstanceIntoInstance_eq_ok hmerge
  obtain ⟨spec', hspec', hname⟩ := hnamed.named
  obtain rfl := Option.some.inj (hspec.symm.trans hspec')
  refine ⟨⟨hnamed.kind_eq, hnamed.mesh_simple, _, rfl, hname⟩, ⟨rfl, rfl⟩, ?_, ?_⟩
  · simp only [instanceProtocolKey, hspec, Option.map_some, Option.getD_some, Instance.mergeRuntime]
  · simp only [instanceReleaseKey, hspec, Option.map_some, Option.getD_some, Instance.mergeRuntime]

/-- Clearing the runtime fields keeps the keys. -/
theorem clearRuntime_keeps (hnamed : WellNamed old) :
    WellNamed (clearRuntimeInstanceFromInstance old) ∧
      SameKeys old (clearRuntimeInstanceFromInstance old) := by
  obtain ⟨spec, hspec, hname⟩ := hnamed.named
  have hclear : clearRuntimeInstanceFromInstance old =
      { old with spec := ⟨∅, some spec.clearRuntime⟩ } := by
    unfold clearRuntimeInstanceFromInstance
    rw [hspec]
  rw [hclear]
  refine ⟨⟨hnamed.kind_eq, hnamed.mesh_simple, _, rfl, hname⟩, ⟨rfl, rfl⟩, ?_, ?_⟩
  · simp only [instanceProtocolKey, hspec, Option.map_some, Option.getD_some, Instance.clearRuntime]
  · simp only [instanceReleaseKey, hspec, Option.map_some, Option.getD_some, Instance.clearRuntime]

variable {rpcInstanceRes : RPCInstanceResource}

/-- An RPC merge stays at its place, with the protocol and the release that it brings. -/
theorem mergeRPC_place (hnamed : WellNamed old)
    (hmerge : mergeRPCInstanceIntoInstance rpcInstanceRes old = .ok inst) :
    (WellNamed inst ∧ SamePlace old inst) ∧ ∃ spec, rpcInstanceRes.spec = some spec ∧
      instanceProtocolKey inst = spec.protocol ∧ instanceReleaseKey inst = spec.releaseVersion := by
  obtain ⟨rpc, spec, hrpc, hspec, rfl⟩ := mergeRPCInstanceIntoInstance_eq_ok hmerge
  obtain ⟨spec', hspec', hname⟩ := hnamed.named
  obtain rfl := Option.some.inj (hspec.symm.trans hspec')
  exact ⟨⟨⟨hnamed.kind_eq, hnamed.mesh_simple, _, rfl, hname⟩, rfl, rfl⟩, rpc, hrpc, rfl, rfl⟩

/-- An RPC merge keeps the keys where it brings those that are there. -/
theorem mergeRPC_keeps (hnamed : WellNamed old) (hkeys : ∀ spec, rpcInstanceRes.spec = some spec →
      normalizeDistributionKey spec.protocol =
          normalizeDistributionKey (instanceProtocolKey old) ∧
        normalizeDistributionKey spec.releaseVersion =
          normalizeDistributionKey (instanceReleaseKey old))
    (hmerge : mergeRPCInstanceIntoInstance rpcInstanceRes old = .ok inst) :
    WellNamed inst ∧ SameKeys old inst := by
  obtain ⟨⟨hnamed', hplace⟩, spec, hspec, hprotocol, hrelease⟩ := mergeRPC_place hnamed hmerge
  have hkeys' := hkeys spec hspec
  rw [← hprotocol, ← hrelease] at hkeys'
  exact ⟨hnamed', hplace, hkeys'.1, hkeys'.2⟩

/-- Clearing the RPC fields stays at its place, without a protocol and a release. -/
theorem clearRPC_place (hnamed : WellNamed old) (now : String) :
    (WellNamed (clearRPCInstanceFromInstance now old) ∧
        SamePlace old (clearRPCInstanceFromInstance now old)) ∧
      instanceProtocolKey (clearRPCInstanceFromInstance now old) = "" ∧
      instanceReleaseKey (clearRPCInstanceFromInstance now old) = "" := by
  obtain ⟨spec, hspec, hname⟩ := hnamed.named
  have hclear : clearRPCInstanceFromInstance now old =
      { old with spec := { old.spec with spec := some (spec.clearRPC now) } } := by
    unfold clearRPCInstanceFromInstance
    rw [hspec]
    rfl
  rw [hclear]
  exact ⟨⟨⟨hnamed.kind_eq, hnamed.mesh_simple, _, rfl, hname⟩, rfl, rfl⟩, rfl, rfl⟩

theorem clearRPC_keeps (hnamed : WellNamed old) (now : String)
    (hkeys : normalizeDistributionKey (instanceProtocolKey old) = "unknown" ∧
      normalizeDistributionKey (instanceReleaseKey old) = "unknown") :
    WellNamed (clearRPCInstanceFromInstance now old) ∧
      SameKeys old (clearRPCInstanceFromInstance now old) := by
  obtain ⟨⟨hnamed', hplace⟩, hprotocol, hrelease⟩ := clearRPC_place hnamed now
  refine ⟨hnamed', hplace, ?_, ?_⟩
  · rw [hprotocol, hkeys.1]
    rfl
  · rw [hrelease, hkeys.2]
    rfl

/-- The instance that is created from an RPC instance has the name that was looked up. -/
theorem createInstance_named {rt : R} (hmesh : '/' ∉ rpcInstanceRes.mesh.toList)
    (hbuilt : NamedAsBuilt rpcInstanceRes)
    (hcreate : sub.createInstance rt rpcInstanceRes = .ok inst) :
    WellNamed inst ∧ inst.mesh = rpcInstanceRes.mesh ∧ inst.name = rpcInstanceRes.name := by
  unfold RPCInstanceEventSubscriber.createInstance at hcreate
  cases hspec : rpcInstanceRes.spec with
  | none =>
    simp only [fromRPCInstance, hspec] at hcreate
    cases hcreate
  | some spec =>
    obtain ⟨hname, hspecName⟩ := hbuilt spec hspec
    -- What comes first is an instance of the RPC instance alone.
    have hfrom : ∃ first, fromRPCInstance rpcInstanceRes = .ok first ∧ WellNamed first ∧
        first.mesh = rpcInstanceRes.mesh ∧ first.name = rpcInstanceRes.name := by
      unfold fromRPCInstance mergeRPCInstanceIntoInstance
      simp only [hspec, newInstanceResourceWithAttributes]
      refine ⟨_, rfl, ⟨rfl, hmesh, _, rfl, ?_, ?_⟩, rfl, hname.symm⟩
      · exact hspecName.trans hname
      · show isBlank spec.name = false
        rw [hspecName, hname]
        exact isBlank_buildInstanceResName _ _ _
    obtain ⟨first, hfirst, hnamed, hmesh', hname'⟩ := hfrom
    rw [hfirst] at hcreate
    replace hcreate : sub.findRelatedRuntimeInstanceAndMerge rt first = .ok inst := hcreate
    unfold RPCInstanceEventSubscriber.findRelatedRuntimeInstanceAndMerge at hcreate
    split_ifs at hcreate
    · split at hcreate
      · cases hcreate
      · split at hcreate
        · cases hcreate
          exact ⟨hnamed, hmesh', hname'⟩
        · obtain ⟨hnamed', hsame⟩ := mergeRuntime_keeps hnamed hcreate
          exact ⟨hnamed', hsame.mesh_eq.trans hmesh', hsame.name_eq.trans hname'⟩
    · cases hcreate
      exact ⟨hnamed, hmesh', hname'⟩

section Effects

variable {s : S} {Named : InstanceResource → Prop}
  {Same : InstanceResource → InstanceResource → Prop} (hplaces : Places Named Same)

include hplaces in
/-- An RPC upsert, whose merge and whose new instance are as they should be. -/
theorem rpcUpsert_effect (h : Tidy sub.instanceStore s) (rt : R)
    {rpcInstanceRes : RPCInstanceResource}
    (hmerge : checkAttributeEnough rpcInstanceRes = true → ∀ old inst,
      (sub.instanceStore.stored s).get?
        (buildResourceKey rpcInstanceRes.mesh rpcInstanceRes.name) = some old →
      mergeRPCInstanceIntoInstance rpcInstanceRes old = .ok inst → Named inst ∧ Same old inst)
    (hcreate : checkAttributeEnough rpcInstanceRes = true → ∀ inst,
      sub.createInstance rt rpcInstanceRes = .ok inst →
      Named inst ∧ inst.mesh = rpcInstanceRes.mesh ∧ inst.name = rpcInstanceRes.name) :
    EffectOf Named Same sub.instanceStore s
      (sub.processUpsert rt ⟨s, []⟩ rpcInstanceRes).2 := by
  unfold RPCInstanceEventSubscriber.processUpsert
  split_ifs with henough
  · have hrelated := sub.getRelatedInstanceRes_eq s rpcInstanceRes
    refine upsertSource_effect h.valid hplaces (getByKey_stored _ _ _)
      (fun old inst hold hmerged => ?_) fun inst hnone hcreated => ?_
    · replace hold := Except.ok.inj (hrelated.symm.trans hold)
      exact hmerge henough old inst hold hmerged
    · replace hnone := Except.ok.inj (hrelated.symm.trans hnone)
      cases hresult : sub.createInstance rt rpcInstanceRes with
      | error e =>
        rw [hresult] at hcreated
        exact nomatch hcreated
      | ok created =>
        rw [hresult] at hcreated
        obtain rfl : created = inst := Option.some.inj (Except.ok.inj hcreated)
        obtain ⟨hnamed, hmesh, hname⟩ := hcreate henough created hresult
        refine ⟨hnamed, ?_⟩
        unfold Resource.resourceKey
        rw [hmesh, hname]
        exact hnone
  · exact .skipped

include hplaces in
/-- An RPC delete, whose clearing is as it should be. -/
theorem rpcDelete_effect (h : Tidy sub.instanceStore s) (now : String)
    {rpcInstanceRes : RPCInstanceResource}
    (hclear : ∀ old, (sub.instanceStore.stored s).get?
        (buildResourceKey rpcInstanceRes.mesh rpcInstanceRes.name) = some old →
      Named (clearRPCInstanceFromInstance now old) ∧
        Same old (clearRPCInstanceFromInstance now old)) :
    EffectOf Named Same sub.instanceStore s
      (sub.processDelete now ⟨s, []⟩ rpcInstanceRes).2 := by
  have hrelated := sub.getRelatedInstanceRes_eq s rpcInstanceRes
  refine dropSource_effect h.valid hplaces (getByKey_stored _ _ _) fun old hold => ?_
  exact hclear old (Except.ok.inj (hrelated.symm.trans hold))

/-- Where the runtime subscriber has found no instance, the key of the new one is free. -/
theorem fromRuntimeInstance_new (h : Tidy sub.instanceStore s)
    {rtInstanceRes : RuntimeInstanceResource} {inst : InstanceResource}
    (henough : checkAttributesEnough rtInstanceRes = true)
    (hmesh : '/' ∉ rtInstanceRes.mesh.toList)
    (hnone : RuntimeInstanceEventSubscriber.getRelatedInstance ⟨sub.instanceStore⟩ s
      rtInstanceRes = .ok none)
    (hfrom : fromRuntimeInstance rtInstanceRes = .ok inst) :
    (WellNamed inst ∧ inst.mesh = rtInstanceRes.mesh) ∧
      (sub.instanceStore.stored s).get? inst.resourceKey = none := by
  cases hspec : rtInstanceRes.spec.spec with
  | none =>
    simp only [fromRuntimeInstance, hspec] at hfrom
    cases hfrom
  | some spec =>
    unfold fromRuntimeInstance mergeRuntimeInstanceIntoInstance at hfrom
    simp only [hspec, newInstanceResourceWithAttributes] at hfrom
    cases hfrom
    refine ⟨⟨⟨rfl, hmesh, _, rfl, rfl, isBlank_buildInstanceResName _ _ _⟩, rfl⟩, ?_⟩
    -- An instance under the key would have been the only one of its name in the mesh.
    rw [Keyed.get?_eq_none_iff]
    intro r hr hkey
    have hnamed := h.named r hr
    obtain ⟨hsameMesh, hsameName⟩ := buildResourceKey_inj hnamed.mesh_simple hmesh hkey
    obtain ⟨rspec, hrspec, hrname, hblank⟩ := hnamed.named
    have hbyName := getRelatedInstanceByName_of_none hspec henough hnone
    obtain ⟨out, hout, hnodup, hmem⟩ := getRelatedInstanceByName_spec ⟨sub.instanceStore⟩ h.valid
      h.exact rtInstanceRes.mesh spec
    have hident : identifies spec = true ∧ isBlank rtInstanceRes.mesh = false := by
      unfold checkAttributesEnough at henough
      rw [hspec] at henough
      simp only [Bool.not_or, Bool.and_eq_true, Bool.not_eq_true'] at henough
      simp [identifies, henough]
    have hin : r ∈ out := (hmem r).mpr ⟨hident.1, hr, .inr hsameMesh,
      mem_values_name.mpr ⟨rspec, hrspec, hblank, hrname.trans hsameName⟩⟩
    have honly : ∀ r' ∈ out, r' = r := by
      intro r' hr'
      obtain ⟨-, hstored, hmesh', hvalue⟩ := (hmem r').mp hr'
      obtain ⟨spec', hspec', -, hname'⟩ := mem_values_name.mp hvalue
      obtain ⟨spec'', hspec'', hrname', -⟩ := (h.named r' hstored).named
      obtain rfl := Option.some.inj (hspec'.symm.trans hspec'')
      have hmeshEq : r'.mesh = r.mesh := by
        rw [hident.2] at hmesh'
        exact (hmesh'.resolve_left Bool.false_ne_true).trans hsameMesh.symm
      have hnameEq : r'.name = r.name := by
        rw [← hrname', hname']
        exact hsameName.symm
      refine Keyed.eq_of_key_eq hstored hr ?_
      unfold Resource.resourceKey
      rw [hmeshEq, hnameEq]
    have hsingle : out = [r] := by
      refine List.perm_singleton.mp ((List.perm_ext_iff_of_nodup hnodup
        (List.nodup_singleton r)).mpr fun r' => ?_)
      rw [List.mem_singleton]
      exact ⟨honly r', fun heq => heq ▸ hin⟩
    rw [hout, hsingle] at hbyName
    cases hbyName

include hplaces in
/-- A runtime upsert, whose merge and whose new instance are as they should be. -/
theorem runtimeUpsert_effect (h : Tidy sub.instanceStore s)
    {rtInstanceRes : RuntimeInstanceResource}
    (hmesh : checkAttributesEnough rtInstanceRes = true → '/' ∉ rtInstanceRes.mesh.toList)
    (hmerge : ∀ old inst, old ∈ (sub.instanceStore.stored s).items →
      mergeRuntimeInstanceIntoInstance rtInstanceRes old = .ok inst → Named inst ∧ Same old inst)
    (hcreate : checkAttributesEnough rtInstanceRes = true → ∀ inst,
      WellNamed inst ∧ inst.mesh = rtInstanceRes.mesh → Named inst) :
    EffectOf Named Same sub.instanceStore s (RuntimeInstanceEventSubscriber.processUpsert
      ⟨sub.instanceStore⟩ ⟨s, []⟩ rtInstanceRes).2 := by
  have hfinds := getRelatedInstance_stored ⟨sub.instanceStore⟩ h.valid h.exact rtInstanceRes
  refine upsertSource_effect h.valid hplaces hfinds (fun old inst hold hmerged => ?_)
    fun inst hnone hcreated => ?_
  · obtain ⟨found, hfound, hstored⟩ := hfinds
    exact hmerge old inst (hstored old (Except.ok.inj (hfound.symm.trans hold))) hmerged
  · split_ifs at hcreated with henough
    · cases hfrom : fromRuntimeInstance rtInstanceRes with
      | error e =>
        rw [hfrom] at hcreated
        exact nomatch hcreated
      | ok created =>
        rw [hfrom] at hcreated
        obtain rfl : created = inst := Option.some.inj (Except.ok.inj hcreated)
        obtain ⟨hnamed, hnew⟩ := fromRuntimeInstance_new h henough (hmesh henough) hnone hfrom
        exact ⟨hcreate henough created hnamed, hnew⟩
    · exact nomatch hcreated

include hplaces in
/-- A runtime delete, whose clearing is as it should be. -/
theorem runtimeDelete_effect (h : Tidy sub.instanceStore s)
    (rtInstanceRes : RuntimeInstanceResource)
    (hclear : ∀ old ∈ (sub.instanceStore.stored s).items,
      Named (clearRuntimeInstanceFromInstance old) ∧
        Same old (clearRuntimeInstanceFromInstance old)) :
    EffectOf Named Same sub.instanceStore s (RuntimeInstanceEventSubscriber.processDelete
      ⟨sub.instanceStore⟩ ⟨s, []⟩ rtInstanceRes).2 := by
  have hfinds := getRelatedInstance_stored ⟨sub.instanceStore⟩ h.valid h.exact rtInstanceRes
  refine dropSource_effect h.valid hplaces hfinds fun old hold => ?_
  obtain ⟨found, hfound, hstored⟩ := hfinds
  exact hclear old (hstored old (Except.ok.inj (hfound.symm.trans hold)))

end Effects

/-- An event that keeps the keys. -/
theorem processAction_effect (h : Exact sub.instanceStore x) {a : InstanceAction R}
    (hkeeps : KeepsKeys sub.instanceStore x a) :
    Effect sub.instanceStore x.store (processAction sub x.store a) := by
  have hplaces : Places WellNamed SameKeys :=
    ⟨fun _ hnamed => hnamed.kind_eq, fun _ _ hsame => hsame.resourceKey_eq⟩
  cases a with
  | rpc rt now event =>
    unfold KeepsKeys at hkeeps
    unfold processAction RPCInstanceEventSubscriber.processEvent
    dsimp only at hkeeps ⊢
    cases hchange : rpcChange event with
    | error e => exact .skipped
    | ok change =>
      rw [hchange] at hkeeps
      cases change with
      | upsert newObj =>
        refine rpcUpsert_effect hplaces h.toTidy rt (fun henough old inst hold hmerge => ?_)
          fun henough inst hcreate => ?_
        · have hnamed := h.named old (Keyed.get?_eq_some_iff.mp hold).1
          exact mergeRPC_keeps hnamed (fun spec => (hkeeps henough).2.2 old spec hold) hmerge
        · obtain ⟨hmesh, hbuilt, -⟩ := hkeeps henough
          exact createInstance_named hmesh hbuilt hcreate
      | delete oldObj =>
        refine rpcDelete_effect hplaces h.toTidy now fun old hold => ?_
        exact clearRPC_keeps (h.named old (Keyed.get?_eq_some_iff.mp hold).1) now (hkeeps old hold)
  | runtime event =>
    unfold KeepsKeys at hkeeps
    unfold processAction RuntimeInstanceEventSubscriber.processEvent
    dsimp only at hkeeps ⊢
    cases hchange : runtimeChange event with
    | error e => exact .skipped
    | ok change =>
      rw [hchange] at hkeeps
      cases change with
      | upsert newObj =>
        exact runtimeUpsert_effect hplaces h.toTidy hkeeps
          (fun old inst hold hmerge => mergeRuntime_keeps (h.named old hold) hmerge)
          fun _ inst hnamed => hnamed.1
      | delete oldObj =>
        exact runtimeDelete_effect hplaces h.toTidy oldObj
          fun old hold => clearRuntime_keeps (h.named old hold)

end Keeping

/-! ## Whole runs -/

/-- In every run from an empty store whose events keep the keys, the distributions are the
histograms of what is stored. -/
theorem distributions_are_histograms {sub : RPCInstanceEventSubscriber S R} {x₀ x : CountedStore S}
    {actions : List (InstanceAction R)} (hfresh : Fresh sub.instanceStore x₀)
    (hrun : Run (Guarded (KeepsKeys sub.instanceStore) (CountStep sub)) x₀ actions x) :
    DistributionsExact sub.instanceStore x := by
  have hexact : Exact sub.instanceStore x := by
    refine hrun.invariant (Exact sub.instanceStore) hfresh.exact_counts ?_
    rintro s a _ h ⟨hkeeps, rfl⟩
    exact h.effect (processAction_effect h hkeeps)
  exact hexact.distributions

/-- An RPC instance of the sample pod, with its protocol. -/
def sampleRPC : RPCInstanceResource where
  kind := rpcInstanceKind
  mesh := "nacos"
  name := "shop10.0.0.1:20880"
  spec := some {
    name := "shop10.0.0.1:20880"
    appName := "shop"
    ip := "10.0.0.1"
    port := 20880
    registerTime := "2024-01-01 00:00:00"
    unregisterTime := ""
    releaseVersion := "3.2.0"
    protocol := "dubbo"
    serialization := ""
    preferSerialization := ""
    tags := ∅ }

/-- An empty store, and a new manager. -/
def sampleCounted : CountedStore (Memory.ResourceStore (Labelled Instance)) :=
  ⟨Memory.init instanceIndexers, CounterManager.newCounterManager⟩

theorem sampleCounted_fresh : Fresh memoryInstanceStore sampleCounted := ⟨rfl, trivial, rfl, rfl⟩

/-- The RPC instance is added. -/
def sampleRegistered : InstanceAction (Memory.ResourceStore (Labelled RuntimeInstance)) :=
  .rpc (Memory.init runtimeInstanceIndexers) "" ⟨.added, none, some sampleRPC⟩

/-- The pod is added. -/
def sampleDeployed : InstanceAction (Memory.ResourceStore (Labelled RuntimeInstance)) :=
  .runtime ⟨.added, none, some sampleRuntime.res⟩

/-- The pod is deleted. -/
def sampleUndeployed : InstanceAction (Memory.ResourceStore (Labelled RuntimeInstance)) :=
  .runtime ⟨.deleted, some sampleRuntime.res, none⟩

/-- An instance that is registered first is counted under its protocol while its pod comes and
goes. -/
theorem distributions_are_histograms_registered :
    ∃ x, Run (Guarded (KeepsKeys memoryInstanceStore) (CountStep sampleRPCSubscriber)) sampleCounted
        [sampleRegistered, sampleDeployed, sampleUndeployed] x ∧
      DistributionsExact memoryInstanceStore x := by
  have hfirst : KeepsKeys memoryInstanceStore sampleCounted sampleRegistered := by
    intro _
    refine ⟨by decide, ?_, fun inst spec hget => nomatch hget⟩
    intro spec hspec
    cases hspec
    exact ⟨by decide +kernel, rfl⟩
  have hmesh : '/' ∉ sampleRuntime.res.mesh.toList := by decide
  have h₁ : Run (Guarded (KeepsKeys memoryInstanceStore) (CountStep sampleRPCSubscriber))
      sampleCounted [sampleRegistered] _ := Run.nil.snoc ⟨hfirst, rfl⟩
  have h₂ := h₁.snoc (a := sampleDeployed) ⟨fun _ => hmesh, rfl⟩
  have h₃ := h₂.snoc (a := sampleUndeployed) ⟨trivial, rfl⟩
  have hexact : DistributionsExact sampleRPCSubscriber.instanceStore _ :=
    distributions_are_histograms sampleCounted_fresh h₃
  exact ⟨_, h₃, hexact⟩

/-- An instance that is registered after its pod has come is never counted under its protocol. -/
theorem merged_protocol_uncounted :
    ∃ x, Run (CountStep sampleRPCSubscriber) sampleCounted [sampleDeployed, sampleRegistered] x ∧
      histogram instanceProtocolKey (memoryInstanceStore.stored x.store) "dubbo" = 1 ∧
      (x.counters.distribution .protocol).lookup "dubbo" = none ∧
      ¬ DistributionsExact memoryInstanceStore x := by
  have h₁ : Run (CountStep sampleRPCSubscriber) sampleCounted [sampleDeployed] _ :=
    Run.nil.snoc rfl
  have h₂ := h₁.snoc (a := sampleRegistered) rfl
  have hstored : histogram instanceProtocolKey (memoryInstanceStore.stored
      ((sampleCounted.next sampleRPCSubscriber sampleDeployed).next sampleRPCSubscriber
        sampleRegistered).store) "dubbo" = 1 := by
    decide +kernel
  have hcounted : (((sampleCounted.next sampleRPCSubscriber sampleDeployed).next
      sampleRPCSubscriber sampleRegistered).counters.distribution .protocol).lookup "dubbo" =
        none := by
    decide +kernel
  refine ⟨_, h₂, hstored, hcounted, fun hexact => ?_⟩
  have hentry := (hexact "dubbo").1
  rw [hstored, hcounted] at hentry
  exact nomatch hentry

end DubboAdmin.Console
