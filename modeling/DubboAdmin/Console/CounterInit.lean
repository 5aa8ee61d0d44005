import DubboAdmin.Console.Counter

/-!
# Loading the counters from the store

When a replica starts to count, `startBusinessLogic` of `pkg/console/counter/component.go` resets
the manager and counts what is stored (`initializeResourceCount`). Later events are counted by
`handleEvent`, which counts what is missing as `unknown`. Loading leaves out what has no protocol,
no release or no spec, and counts an instance without a mesh as `default`.

Both ways count multisets of groups and keys, which are the same if and only if nothing is missing
in any of the stored instances (`Complete`).
-/

namespace DubboAdmin.Console

open Strings Controller Instances

/-! ## Loading -/

namespace CounterManager

def reset (cm : CounterManager) : CounterManager :=
  { cm with
    simpleCounters := fillWith cm.simpleCounters ∅
    distributionByType := fillWith cm.distributionByType ∅ }

/-- An increment in the counter of a metric, where `getDistributionConfig` finds it. -/
def incrementDistribution (cm : CounterManager) (kind : String) (metric : CounterType)
    (mesh key : String) : CounterManager :=
  match (cm.distributionConfigs.lookup kind).bind (AList.lookup metric) with
  | none => cm
  | some _ =>
    { cm with
      distributionByType :=
        modify cm.distributionByType metric fun counter => counter.increment mesh key }

/-- What the body of the loop in `initializeResourceCount` does with the spec of an instance. -/
def loadSpec (cm : CounterManager) (mesh : String) (spec : Instance) : CounterManager :=
  let cm := if spec.protocol = "" then cm
    else cm.incrementDistribution instanceKind .protocol mesh spec.protocol
  let cm := if spec.releaseVersion = "" then cm
    else cm.incrementDistribution instanceKind .release mesh spec.releaseVersion
  cm.incrementDistribution instanceKind .discovery mesh mesh

/-- The body of the loop in `initializeResourceCount`. -/
def loadResource (cm : CounterManager) (resource : InstanceResource) : CounterManager :=
  let mesh := if resource.mesh = "" then "default" else resource.mesh
  let cm :=
    { cm with
      simpleCounters :=
        modify cm.simpleCounters instanceKind fun counter => counter.increment mesh }
  match resource.spec.spec with
  | none => cm
  | some spec => cm.loadSpec mesh spec

/-- `initializeResourceCount`, of the kind of instances. -/
def initializeResourceCount (cm : CounterManager) (allResources : List InstanceResource) :
    CounterManager :=
  allResources.foldl loadResource cm

/-- The manager counts instances, by number and by each of the metrics. -/
structure CountsInstances (cm : CounterManager) : Prop where
  leader : cm.isLeader ≠ some false
  simple : instanceKind ∈ cm.simpleCounters
  configs : ∃ configs, cm.distributionConfigs.lookup instanceKind = some configs ∧
    ∀ metric, configs.lookup metric = some (extractorOf metric)
  byType : ∀ metric, metric ∈ cm.distributionByType

/-- Nobody who asks for the number of instances, in total or by mesh, can tell the managers
apart. -/
def SameCounts (cm cm' : CounterManager) : Prop :=
  cm.count instanceKind = cm'.count instanceKind ∧
    ∀ mesh, cm.countByMesh instanceKind mesh = cm'.countByMesh instanceKind mesh

/-- Nobody who asks for a distribution, in total or by mesh, can tell the managers apart. -/
def SameDistributions (cm cm' : CounterManager) : Prop :=
  ∀ metric key, (cm.distribution metric).lookup key = (cm'.distribution metric).lookup key ∧
    ∀ mesh, (cm.distributionByMesh metric mesh).lookup key =
      (cm'.distributionByMesh metric mesh).lookup key

end CounterManager

/-- The events of instances that were added. -/
def addedEvents (resources : List InstanceResource) :
    List (ResourceChangedEvent (Labelled Instance)) :=
  resources.map fun res => ⟨.added, none, some res⟩

/-! ## What is counted either way -/

/-- The group and the key under which a spec is loaded. -/
def loadedSpecAs (mesh : String) (spec : Instance) : CounterType → Option (String × String)
  | .protocol => if spec.protocol = "" then none else some (mesh, spec.protocol)
  | .release => if spec.releaseVersion = "" then none else some (mesh, spec.releaseVersion)
  | .discovery => some (mesh, mesh)

/-- The group and the key under which an instance is loaded. -/
def loadedAs (metric : CounterType) (r : InstanceResource) : Option (String × String) :=
  r.spec.spec.bind fun spec => loadedSpecAs (extractMeshName (some r)) spec metric

/-- The manager counts the instances of the meshes, and for each metric the groups and keys. -/
structure CountsAre (cm : CounterManager) (meshes : Multiset String)
    (pairs : CounterType → Multiset (String × String)) : Prop where
  leader : cm.isLeader ≠ some false
  configs : ∃ configs, cm.distributionConfigs.lookup instanceKind = some configs ∧
    ∀ metric, configs.lookup metric = some (extractorOf metric)
  simple : ∃ counter, cm.simpleCounters.lookup instanceKind = some counter ∧
    Tally.Counts counter fun mesh => meshes.count mesh
  byType : ∀ metric, ∃ counter, cm.distributionByType.lookup metric = some counter ∧
    GroupedTally.Counts counter (pairs metric)

theorem CountsAre.countsMeshes {cm : CounterManager} {meshes : Multiset String}
    {pairs : CounterType → Multiset (String × String)} (h : CountsAre cm meshes pairs) :
    CountsMeshes cm meshes :=
  ⟨h.leader, h.simple⟩

/-- No counter has counted anything after `Reset`. -/
theorem CounterManager.CountsInstances.reset_counts {cm : CounterManager}
    (h : cm.CountsInstances) : CountsAre cm.reset 0 fun _ => 0 where
  leader := h.leader
  configs := h.configs
  simple := by
    obtain ⟨counter, hcounter⟩ := Option.isSome_iff_exists.mp (AList.lookup_isSome.mpr h.simple)
    refine ⟨∅, ?_, Tally.counts_empty⟩
    show (fillWith cm.simpleCounters ∅).lookup instanceKind = some ∅
    rw [lookup_fillWith, hcounter]
    rfl
  byType metric := by
    obtain ⟨counter, hcounter⟩ :=
      Option.isSome_iff_exists.mp (AList.lookup_isSome.mpr (h.byType metric))
    refine ⟨∅, ?_, GroupedTally.counts_empty⟩
    show (fillWith cm.distributionByType ∅).lookup metric = some ∅
    rw [lookup_fillWith, hcounter]
    rfl

section Steps

variable {cm : CounterManager} {meshes : Multiset String}
  {pairs : CounterType → Multiset (String × String)}

theorem CountsAre.modify_simple (h : CountsAre cm meshes pairs) {f : Counter → Counter}
    {meshes' : Multiset String}
    (hf : ∀ counter : Counter, (Tally.Counts counter fun mesh => meshes.count mesh) →
      Tally.Counts (f counter) fun mesh => meshes'.count mesh) :
    CountsAre { cm with simpleCounters := modify cm.simpleCounters instanceKind f }
      meshes' pairs := by
  obtain ⟨counter, hlookup, hcounts⟩ := h.simple
  refine ⟨h.leader, h.configs, ⟨f counter, ?_, hf counter hcounts⟩, h.byType⟩
  show (modify cm.simpleCounters instanceKind f).lookup instanceKind = _
  rw [lookup_modify_self, hlookup]
  rfl

/-- An increment for a metric counts one more pair, for this metric only. -/
theorem CountsAre.incrementDistribution (h : CountsAre cm meshes pairs) (metric : CounterType)
    (mesh key : String) :
    CountsAre (cm.incrementDistribution instanceKind metric mesh key) meshes
      (Function.update pairs metric
        ((groupName mesh, normalizeDistributionKey key) ::ₘ pairs metric)) := by
  obtain ⟨configs, hconfigs, hextractors⟩ := h.configs
  have hcm : cm.incrementDistribution instanceKind metric mesh key =
      { cm with
        distributionByType :=
          modify cm.distributionByType metric fun counter => counter.increment mesh key } := by
    unfold CounterManager.incrementDistribution
    rw [hconfigs, Option.bind_some, hextractors metric]
  rw [hcm]
  refine ⟨h.leader, h.configs, h.simple, fun metric' => ?_⟩
  obtain ⟨counter, hlookup, hcounts⟩ := h.byType metric'
  by_cases hmetric : metric' = metric
  · subst hmetric
    rw [Function.update_self]
    refine ⟨_, ?_, hcounts.increment (groupName mesh) (normalizeDistributionKey key)⟩
    show (modify cm.distributionByType metric' _).lookup metric' = _
    rw [lookup_modify_self, hlookup]
    rfl
  · rw [Function.update_of_ne hmetric]
    refine ⟨counter, ?_, hcounts⟩
    show (modify cm.distributionByType metric _).lookup metric' = _
    rw [lookup_modify_ne _ _ hmetric]
    exact hlookup

/-- The increment for a metric whose value may be missing. -/
theorem CountsAre.incrementUnless (h : CountsAre cm meshes pairs) (metric : CounterType)
    {mesh : String} (hmesh : groupName mesh = mesh) (key : String) :
    CountsAre (if key = "" then cm else cm.incrementDistribution instanceKind metric mesh key)
      meshes (Function.update pairs metric
        (pairs metric + ((if key = "" then none else some (mesh, key)).toList :
          List (String × String)))) := by
  split_ifs with hkey
  · rw [Option.toList_none, Multiset.coe_nil, add_zero, Function.update_eq_self]
    exact h
  · have hnormal : normalizeDistributionKey key = key := if_neg hkey
    have hcounts := h.incrementDistribution metric mesh key
    rw [hmesh, hnormal] at hcounts
    rw [Option.toList_some, Multiset.coe_singleton, add_comm, Multiset.singleton_add]
    exact hcounts

/-- Loading the spec of an instance. -/
theorem CountsAre.loadSpec (h : CountsAre cm meshes pairs) {mesh : String}
    (hmesh : groupName mesh = mesh) (spec : Instance) :
    CountsAre (cm.loadSpec mesh spec) meshes fun metric =>
      pairs metric + ((loadedSpecAs mesh spec metric).toList : List (String × String)) := by
  have hnormal : normalizeDistributionKey mesh = mesh := by
    refine if_neg fun hempty => ?_
    rw [hempty] at hmesh
    exact absurd hmesh (by decide)
  have hprotocol := h.incrementUnless .protocol hmesh spec.protocol
  have hrelease := hprotocol.incrementUnless .release hmesh spec.releaseVersion
  have hdiscovery := hrelease.incrementDistribution .discovery mesh mesh
  rw [hmesh, hnormal] at hdiscovery
  unfold CounterManager.loadSpec
  convert hdiscovery using 1
  funext metric
  -- Each metric is updated once, and read before by none of the others.
  cases metric with
  | protocol | release => simp [loadedSpecAs]
  | discovery =>
    simp only [loadedSpecAs, Option.toList_some, Multiset.coe_singleton, Function.update_self]
    rw [add_comm, Multiset.singleton_add]
    simp

/-- Loading an instance. -/
theorem CountsAre.loadResource (h : CountsAre cm meshes pairs) (r : InstanceResource) :
    CountsAre (cm.loadResource r) (extractMeshName (some r) ::ₘ meshes)
      fun metric => pairs metric + ((loadedAs metric r).toList : List (String × String)) := by
  have hmesh := groupName_extractMeshName (some r)
  have hsimple : CountsAre { cm with
      simpleCounters := modify cm.simpleCounters instanceKind fun counter =>
        counter.increment (extractMeshName (some r)) }
      (extractMeshName (some r) ::ₘ meshes) pairs := by
    refine h.modify_simple fun counter hcounts => ?_
    unfold Counter.increment
    rw [hmesh]
    exact hcounts.cons Function.injective_id (extractMeshName (some r))
  unfold CounterManager.loadResource loadedAs
  cases r.spec.spec with
  | none =>
    simp only [Option.bind_none, Option.toList_none, Multiset.coe_nil, add_zero]
    exact hsimple
  | some spec => exact hsimple.loadSpec hmesh spec

/-- Handling the event of an added instance. -/
theorem CountsAre.handleAdded (h : CountsAre cm meshes pairs) (r : InstanceResource) :
    CountsAre (cm.handleEvent instanceKind ⟨.added, none, some r⟩)
      (extractMeshName (some r) ::ₘ meshes)
      fun metric => countedAs (extractorOf metric) r ::ₘ pairs metric where
  leader := by
    rw [isLeader_handleEvent]
    exact h.leader
  configs := by
    rw [distributionConfigs_handleEvent]
    exact h.configs
  simple := by
    have hadded : CountsMeshes (cm.handleEvent instanceKind ⟨.added, none, some r⟩)
        (extractMeshName (some r) ::ₘ meshes) :=
      h.countsMeshes.handleEvent fun counter hcounts => simple_added hcounts r
    exact hadded.simple
  byType metric := by
    obtain ⟨configs, hconfigs, hextractors⟩ := h.configs
    obtain ⟨counter, hlookup, hcounts⟩ := h.byType metric
    refine ⟨_, ?_, counts_added hcounts r⟩
    rw [lookup_handleEvent h.leader hconfigs (hextractors metric), hlookup]
    rfl

/-- Loading the spec of an instance leaves the number of instances alone. -/
theorem simpleCounters_loadSpec (cm : CounterManager) (mesh : String) (spec : Instance) :
    (cm.loadSpec mesh spec).simpleCounters = cm.simpleCounters ∧
      (cm.loadSpec mesh spec).isLeader = cm.isLeader := by
  have hincrement : ∀ (cm : CounterManager) metric key,
      (cm.incrementDistribution instanceKind metric mesh key).simpleCounters =
          cm.simpleCounters ∧
        (cm.incrementDistribution instanceKind metric mesh key).isLeader = cm.isLeader := by
    intro cm metric key
    unfold CounterManager.incrementDistribution
    split <;> exact ⟨rfl, rfl⟩
  unfold CounterManager.loadSpec
  split_ifs <;> simp [hincrement]

theorem simpleCounters_loadResource (cm : CounterManager) (r : InstanceResource) :
    (cm.loadResource r).simpleCounters = modify cm.simpleCounters instanceKind
        (fun counter => counter.increment (extractMeshName (some r))) ∧
      (cm.loadResource r).isLeader = cm.isLeader := by
  unfold CounterManager.loadResource
  cases r.spec.spec with
  | none => exact ⟨rfl, rfl⟩
  | some spec => exact simpleCounters_loadSpec _ _ spec

theorem CountsMeshes.loadResource (h : CountsMeshes cm meshes) (r : InstanceResource) :
    CountsMeshes (cm.loadResource r) (extractMeshName (some r) ::ₘ meshes) := by
  obtain ⟨hsimple, hleader⟩ := simpleCounters_loadResource cm r
  obtain ⟨counter, hlookup, hcounts⟩ := h.simple
  refine ⟨hleader ▸ h.leader, _, ?_, hcounts.cons Function.injective_id (extractMeshName (some r))⟩
  rw [hsimple, lookup_modify_self, hlookup]
  simp [Counter.increment]

/-- Loading a store counts its instances. -/
theorem CountsMeshes.initializeResourceCount (h : CountsMeshes cm 0)
    (contents : Contents (Labelled Instance)) :
    CountsMeshes (cm.initializeResourceCount contents.items) (storedMeshes contents) := by
  unfold CounterManager.initializeResourceCount storedMeshes
  generalize contents.items = resources
  -- The loop, from its end: the instances that it has passed are counted.
  induction resources using List.reverseRecOn with
  | nil => exact h
  | append_singleton resources r ih =>
    have hmeshes : ((resources ++ [r]).map fun r => extractMeshName (some r) : Multiset String) =
        extractMeshName (some r) ::ₘ
          (resources.map fun r => extractMeshName (some r) : List String) := by
      rw [List.map_append, List.map_singleton, Multiset.cons_coe]
      exact Multiset.coe_eq_coe.mpr (List.perm_append_singleton _ _)
    rw [List.foldl_append, List.foldl_cons, List.foldl_nil, hmeshes]
    exact ih.loadResource r

end Steps

/-! ## Loading and replaying a store -/

section Runs

variable {cm : CounterManager}

/-- What `initializeResourceCount` counts after `Reset`. -/
theorem initializeResourceCount_counts (h : cm.CountsInstances)
    (resources : List InstanceResource) :
    CountsAre (cm.reset.initializeResourceCount resources)
      (resources.map fun r => extractMeshName (some r) : List String)
      fun metric => (resources.filterMap (loadedAs metric) : List (String × String)) := by
  unfold CounterManager.initializeResourceCount
  -- The loop, from its end: the instances that it has passed are counted.
  induction resources using List.reverseRecOn with
  | nil => exact h.reset_counts
  | append_singleton resources r ih =>
    rw [List.foldl_append, List.foldl_cons, List.foldl_nil]
    convert ih.loadResource r using 1
    · rw [List.map_append, List.map_singleton, Multiset.cons_coe]
      exact Multiset.coe_eq_coe.mpr (List.perm_append_singleton _ _)
    · funext metric
      rw [List.filterMap_append, ← Multiset.coe_add]
      cases hloaded : loadedAs metric r with
      | none | some _ => simp [hloaded]

/-- What the events of added instances count after `Reset`. -/
theorem deliver_addedEvents_counts (h : cm.CountsInstances) (resources : List InstanceResource) :
    CountsAre (deliver (addedEvents resources) cm.reset)
      (resources.map fun r => extractMeshName (some r) : List String)
      fun metric => (resources.map (countedAs (extractorOf metric)) : List (String × String)) := by
  unfold deliver addedEvents
  induction resources using List.reverseRecOn with
  | nil => exact h.reset_counts
  | append_singleton resources r ih =>
    rw [List.map_append, List.foldl_append, List.map_singleton, List.foldl_cons, List.foldl_nil]
    convert ih.handleAdded r using 1
    · rw [List.map_append, List.map_singleton, Multiset.cons_coe]
      exact Multiset.coe_eq_coe.mpr (List.perm_append_singleton _ _)
    · funext metric
      rw [List.map_append, List.map_singleton, Multiset.cons_coe]
      exact Multiset.coe_eq_coe.mpr (List.perm_append_singleton _ _)

end Runs

section Comparing

variable {cm cm' : CounterManager} {meshes : Multiset String}
  {pairs pairs' : CounterType → Multiset (String × String)}

theorem CountsAre.sameCounts (h : CountsAre cm meshes pairs) (h' : CountsAre cm' meshes pairs') :
    cm.SameCounts cm' := by
  refine ⟨?_, fun mesh => ?_⟩
  · rw [h.countsMeshes.count_eq, h'.countsMeshes.count_eq]
  · rw [h.countsMeshes.countByMesh_eq, h'.countsMeshes.countByMesh_eq]

/-- The managers that count the same pairs agree on the distributions. -/
theorem CountsAre.sameDistributions (h : CountsAre cm meshes pairs)
    (h' : CountsAre cm' meshes pairs') (hpairs : ∀ metric, pairs metric = pairs' metric) :
    cm.SameDistributions cm' := by
  intro metric key
  obtain ⟨counter, hlookup, hcounts⟩ := h.byType metric
  obtain ⟨counter', hlookup', hcounts'⟩ := h'.byType metric
  have hgroups := (hcounts.agree_iff hcounts').mpr (hpairs metric)
  unfold CounterManager.distribution CounterManager.distributionByMesh
  rw [hlookup, hlookup']
  refine ⟨?_, fun mesh => hgroups _ key⟩
  show (GroupedTally.total counter).lookup key = (GroupedTally.total counter').lookup key
  rw [hcounts.total, hcounts'.total, hpairs]

theorem CountsAre.keys_eq (h : CountsAre cm meshes pairs) (h' : CountsAre cm' meshes pairs')
    (hsame : cm.SameDistributions cm') (metric : CounterType) :
    (pairs metric).map Prod.snd = (pairs' metric).map Prod.snd := by
  obtain ⟨counter, hlookup, hcounts⟩ := h.byType metric
  obtain ⟨counter', hlookup', hcounts'⟩ := h'.byType metric
  ext key
  have htotal := (hsame metric key).1
  unfold CounterManager.distribution at htotal
  rw [hlookup, hlookup'] at htotal
  apply Tally.entry_injective
  rw [← hcounts.total, ← hcounts'.total]
  exact htotal

end Comparing

/-! ## Where both ways agree -/

/-- Nothing is missing that the metrics read. -/
def Complete (r : InstanceResource) : Prop :=
  ∃ spec, r.spec.spec = some spec ∧ spec.protocol ≠ "" ∧ spec.releaseVersion ≠ "" ∧ r.mesh ≠ ""

/-- An instance with nothing missing is counted the same both ways. -/
theorem Complete.loadedAs_eq {r : InstanceResource} (h : Complete r) (metric : CounterType) :
    loadedAs metric r = some (countedAs (extractorOf metric) r) := by
  obtain ⟨spec, hspec, hprotocol, hrelease, hmesh⟩ := h
  unfold loadedAs countedAs
  rw [hspec, Option.bind_some]
  cases metric with
  | protocol =>
    simp [loadedSpecAs, extractorOf, instanceProtocolKey, hspec, hprotocol,
      normalizeDistributionKey]
  | release =>
    simp [loadedSpecAs, extractorOf, instanceReleaseKey, hspec, hrelease, normalizeDistributionKey]
  | discovery =>
    simp [loadedSpecAs, extractorOf, instanceMeshKey, hmesh, normalizeDistributionKey,
      extractMeshName]

section Agreement

variable {resources : List InstanceResource}

theorem isSome_of_keys_eq {metric : CounterType} {f : InstanceResource → String × String}
    (h : (resources.filterMap (loadedAs metric) : Multiset (String × String)).map Prod.snd =
      (resources.map f : Multiset (String × String)).map Prod.snd) :
    ∀ r ∈ resources, (loadedAs metric r).isSome := by
  have hcard := congrArg Multiset.card h
  simp only [Multiset.card_map, Multiset.coe_card, List.length_map] at hcard
  exact List.filterMap_length_eq_length.mp hcard

/-- Where the discoveries agree, each instance has a mesh. -/
theorem mesh_ne_empty_of_keys_eq (hloaded : ∀ r ∈ resources, (loadedAs .discovery r).isSome)
    (h : (resources.filterMap (loadedAs .discovery) : Multiset (String × String)).map Prod.snd =
      (resources.map (countedAs instanceMeshKey) : Multiset (String × String)).map Prod.snd) :
    ∀ r ∈ resources, r.mesh ≠ "" := by
  have hpairs : resources.filterMap (loadedAs .discovery) =
      resources.map fun r => (extractMeshName (some r), extractMeshName (some r)) := by
    rw [← List.filterMap_eq_map]
    refine List.filterMap_congr fun r hr => ?_
    obtain ⟨pair, hpair⟩ := Option.isSome_iff_exists.mp (hloaded r hr)
    obtain ⟨spec, hspec, hdiscovery⟩ := Option.bind_eq_some_iff.mp hpair
    rw [hpair, ← hdiscovery]
    rfl
  -- As many instances are loaded as `unknown` as events count as `unknown`, and the former are
  -- among the latter.
  have hcount := congrArg (Multiset.count "unknown") h
  rw [hpairs] at hcount
  simp only [Multiset.map_coe, List.map_map, Multiset.coe_count, List.count,
    List.countP_map] at hcount
  have hsub : (resources.filter fun r => extractMeshName (some r) == "unknown").Sublist
      (resources.filter fun r => normalizeDistributionKey r.mesh == "unknown") := by
    refine List.monotone_filter_right resources fun r hr => ?_
    have hmesh : extractMeshName (some r) = "unknown" := by simpa using hr
    unfold extractMeshName at hmesh
    dsimp only at hmesh
    split_ifs at hmesh with hempty
    · exact absurd hmesh (by decide)
    · simp [hmesh, normalizeDistributionKey]
  have heq := hsub.eq_of_length (by
    rw [← List.countP_eq_length_filter, ← List.countP_eq_length_filter]
    exact hcount)
  intro r hr hempty
  have hmem : r ∈ resources.filter fun r => normalizeDistributionKey r.mesh == "unknown" := by
    simp [hr, hempty, normalizeDistributionKey]
  rw [← heq] at hmem
  simp [hempty, extractMeshName] at hmem

end Agreement

/-- From a reset manager, loading the stored instances gives the counts and the distributions that
handling one `Added` event for each of them gives, in any order, if and only if each of them has a
mesh and a spec with a protocol and a release. -/
theorem initialization_equals_replay_iff {cm : CounterManager} (hcm : cm.CountsInstances)
    {resources replayed : List InstanceResource} (hperm : replayed.Perm resources) :
    ((cm.reset.initializeResourceCount resources).SameCounts
          (deliver (addedEvents replayed) cm.reset) ∧
        (cm.reset.initializeResourceCount resources).SameDistributions
          (deliver (addedEvents replayed) cm.reset)) ↔
      ∀ r ∈ resources, Complete r := by
  have hloads := initializeResourceCount_counts hcm resources
  have hreplays : CountsAre (deliver (addedEvents replayed) cm.reset)
      (resources.map fun r => extractMeshName (some r) : List String)
      fun metric => (resources.map (countedAs (extractorOf metric)) : List (String × String)) := by
    convert deliver_addedEvents_counts hcm replayed using 1
    · exact Multiset.coe_eq_coe.mpr (hperm.map _).symm
    · funext metric
      exact Multiset.coe_eq_coe.mpr (hperm.map _).symm
  constructor
  · rintro ⟨-, hsame⟩ r hr
    have hkeys := hloads.keys_eq hreplays hsame
    have hprotocol := isSome_of_keys_eq (hkeys .protocol) r hr
    have hrelease := isSome_of_keys_eq (hkeys .release) r hr
    have hmesh := mesh_ne_empty_of_keys_eq (isSome_of_keys_eq (hkeys .discovery))
      (hkeys .discovery) r hr
    unfold loadedAs at hprotocol hrelease
    cases hspec : r.spec.spec with
    | none =>
      rw [hspec] at hprotocol
      exact nomatch hprotocol
    | some spec =>
      rw [hspec, Option.bind_some] at hprotocol hrelease
      refine ⟨spec, hspec, ?_, ?_, hmesh⟩
      · intro hempty
        simp [loadedSpecAs, hempty] at hprotocol
      · intro hempty
        simp [loadedSpecAs, hempty] at hrelease
  · intro hcomplete
    refine ⟨hloads.sameCounts hreplays, hloads.sameDistributions hreplays fun metric => ?_⟩
    have hpairs : resources.filterMap (loadedAs metric) =
        resources.map (countedAs (extractorOf metric)) := by
      rw [← List.filterMap_eq_map]
      exact List.filterMap_congr fun r hr => (hcomplete r hr).loadedAs_eq metric
    rw [hpairs]

/-- An instance with the address, the protocol and the release. -/
def loadedSample (ip protocol releaseVersion : String) : InstanceResource :=
  newInstanceResourceWithAttributes ("shop" ++ ip ++ ":20880") "nacos"
    { name := "shop" ++ ip ++ ":20880", appName := "shop", ip := ip, rpcPort := 20880,
      protocol := protocol, releaseVersion := releaseVersion }

/-- Two registered instances. -/
def loadedPair : InstanceResource × InstanceResource :=
  (loadedSample "10.0.0.1" "dubbo" "3.2.0", loadedSample "10.0.0.2" "tri" "3.3.0")

theorem newCounterManager_countsInstances :
    CounterManager.newCounterManager.CountsInstances where
  leader := by decide
  simple := by decide
  configs := by
    refine ⟨_, rfl, fun metric => ?_⟩
    cases metric <;> rfl
  byType metric := by cases metric <;> decide

/-- Two registered instances are counted the same both ways, in either order. -/
theorem initialization_equals_replay_registered :
    (CounterManager.newCounterManager.reset.initializeResourceCount
        [loadedPair.1, loadedPair.2]).SameDistributions
      (deliver (addedEvents [loadedPair.2, loadedPair.1])
        CounterManager.newCounterManager.reset) := by
  have hcomplete : ∀ r ∈ [loadedPair.1, loadedPair.2], Complete r := by
    simp only [List.forall_mem_cons]
    exact ⟨⟨_, rfl, by decide, by decide, by decide⟩, ⟨_, rfl, by decide, by decide, by decide⟩,
      nofun⟩
  exact ((initialization_equals_replay_iff newCounterManager_countsInstances
    (List.Perm.swap _ _ _)).mpr hcomplete).2

/-- An instance that only its pod has made known is loaded under no protocol, and counted as
`unknown` by its event. -/
theorem unregistered_not_loaded :
    ((CounterManager.newCounterManager.reset.initializeResourceCount
        [loadedSample "10.0.0.1" "" ""]).distribution .protocol).lookup "unknown" = none ∧
      ((deliver (addedEvents [loadedSample "10.0.0.1" "" ""])
        CounterManager.newCounterManager.reset).distribution .protocol).lookup "unknown" =
          some 1 := by
  decide +kernel

end DubboAdmin.Console
