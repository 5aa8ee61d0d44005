import DubboAdmin.Discovery.Metadata
import DubboAdmin.Nacos.Reconcile

/-!
# The consumers of a Nacos service

`processConsumerMetadataUpsert` of `pkg/core/discovery/subscriber/nacos_service.go` turns the
instances of a Nacos service `consumers:<interface>:<version>:<group>` into consumer metadata, and
reconciles the store with them. An instance without an interface becomes a `nil` pointer, which
panics. What is stored is looked up by the interface only, so that the consumers of the interface's
other versions and groups are deleted. `Uniform` says when neither happens, and nor do the keys of
consumers clash, and is equivalent to what the subscriber is for (`Followed`).
-/

namespace DubboAdmin.Nacos

open Controller (World)
open Discovery Instances Strings

/-! ## The subscriber -/

/-- `bizerror.Wrap` with the code `UnknownError`. -/
def unknownError (msg : String) : Failure → Failure
  | .err cause => .err ("[UnknownError], " ++ msg ++ ", cause: " ++ cause)
  | .panic cause => .panic cause

/-- The prefix of the names of consumer services. -/
def consumersPrefix : String := "consumers:"

/-- `parseServiceName`: what follows the prefix, up to the first `:`. -/
def parseServiceName (s : String) : Except Failure String :=
  if hasPrefix s consumersPrefix then
    let rest := String.ofList (s.toList.drop consumersPrefix.length)
    match cut ':' rest with
    | some (part, _) => .ok part
    | none => .ok rest
  else .error (.err "invalid prefix")

/-- `convertFunc` of the consumers: an empty entry for metadata that cannot be converted. -/
def consumerEntry (mesh : String) (inst : NacosInstance) :
    String × Option ServiceConsumerMetadataResource :=
  match toServiceConsumerMetadataByMap inst.metadata mesh with
  | none => ("", none)
  | some res => entryOf res

variable {S : Type}

/-- `processConsumerMetadataUpsert`, up to the log and to what `recordNacosConsumerEvents` writes
into the store of lifecycle events. `text` is the service resource's `String()`, and `route` the
result of asking the router for the store. -/
def processConsumerMetadataUpsert (st : ConsumerStore S) (text : NacosServiceResource → String)
    (route : Except Failure Unit)
    (walk : WalkOrder (String × Option ServiceConsumerMetadataResource))
    (serviceRes : NacosServiceResource) (w : World ServiceConsumerMetadata S) :
    Except Failure Unit × World ServiceConsumerMetadata S :=
  match parseServiceName serviceRes.name with
  | .error e =>
    (.error (unknownError ("parse service name error, raw nacos service is" ++ text serviceRes) e),
      w)
  | .ok serviceName =>
  match serviceRes.spec with
  | none => (.error nilDereference, w)
  | some spec =>
  let newConsumers : ResourceMap ServiceConsumerMetadata :=
    Keyed.ofList (spec.instances.map (consumerEntry serviceRes.mesh))
  match route with
  | .error e => (.error e, w)
  | .ok () =>
    reconcile st.toQueryStore walk (equalsAll
      [(byMeshIndex, serviceRes.mesh), (byServiceConsumerServiceNameIndex, serviceName)])
      newConsumers w

/-- The name of the service that the consumers of an interface, version and group register at. -/
def consumersName (serviceName version group : String) : String :=
  consumersPrefix ++ buildServiceIdentityKey serviceName version group

/-- The interface of such a name is parsed back. -/
theorem parseServiceName_consumersName {serviceName : String} (h : ':' ∉ serviceName.toList)
    (version group : String) :
    parseServiceName (consumersName serviceName version group) = .ok serviceName := by
  have hlist : (consumersName serviceName version group).toList =
      consumersPrefix.toList ++ (serviceName ++ String.singleton ':' ++
        (version ++ ":" ++ group)).toList := by
    simp only [consumersName, buildServiceIdentityKey, String.toList_append, List.append_assoc]
    rfl
  have hstarts : hasPrefix (consumersName serviceName version group) consumersPrefix = true := by
    rw [hasPrefix_iff, hlist]
    exact List.prefix_append _ _
  have hdrop : (consumersName serviceName version group).toList.drop consumersPrefix.length =
      (serviceName ++ String.singleton ':' ++ (version ++ ":" ++ group)).toList := by
    rw [hlist]
    exact List.drop_left
  unfold parseServiceName
  rw [if_pos hstarts, hdrop, String.ofList_toList]
  dsimp only
  rw [cut_join h]

/-! ## What the subscriber is for -/

/-- The consumer's service, in its mesh. -/
def IsConsumerOf (mesh serviceName version group : String) (r : ServiceConsumerMetadataResource) :
    Prop :=
  r.mesh = mesh ∧ r.spec.serviceName = serviceName ∧ r.spec.version = version ∧ r.spec.group = group

/-- No call panics, the consumers of the service are those that the snapshot's instances convert to,
and all others are as before. -/
structure Followed (st : ConsumerStore S) (mesh serviceName version group : String)
    (instances : List NacosInstance) (w : World ServiceConsumerMetadata S)
    (result : Except Failure Unit × World ServiceConsumerMetadata S) : Prop where
  noPanic : ∀ msg, result.1 ≠ .error (.panic msg)
  own : ∀ r, r ∈ (st.stored result.2.store).items ∧ IsConsumerOf mesh serviceName version group r ↔
    ∃ inst ∈ instances, toServiceConsumerMetadataByMap inst.metadata mesh = some r
  others : ∀ r, ¬ IsConsumerOf mesh serviceName version group r →
    (r ∈ (st.stored result.2.store).items ↔ r ∈ (st.stored w.store).items)

/-- The snapshot's instances are consumers of its service, with one metadata for each application,
and so are the stored consumers of the interface, and those with a key of the snapshot. -/
structure Uniform (st : ConsumerStore S) (mesh serviceName version group : String)
    (instances : List NacosInstance) (w : World ServiceConsumerMetadata S) : Prop where
  /-- Every instance names the interface, version and group of the service. -/
  named : ∀ inst ∈ instances, inst.metadata.lookup interfaceKey = some serviceName ∧
    valueAt inst.metadata versionKey = version ∧ valueAt inst.metadata groupKey = group
  /-- The instances of one application have the same metadata. -/
  consistent : ∀ i ∈ instances, ∀ j ∈ instances,
    valueAt i.metadata applicationKey = valueAt j.metadata applicationKey → i.metadata = j.metadata
  /-- Only this version and group of the interface has stored consumers. -/
  alone : ∀ r ∈ (st.stored w.store).items, r.mesh = mesh → r.spec.serviceName = serviceName →
    r.spec.version = version ∧ r.spec.group = group
  /-- No other stored consumer has the key of an instance. -/
  free : ∀ inst ∈ instances, ∀ old ∈ (st.stored w.store).items, old.resourceKey =
      buildResourceKey mesh (buildServiceKey serviceName version group
        (valueAt inst.metadata applicationKey)) →
    IsConsumerOf mesh serviceName version group old

/-! ## When the subscriber does it -/

section Upsert

variable {st : ConsumerStore S} {mesh serviceName version group : String}
  {instances : List NacosInstance} {w : World ServiceConsumerMetadata S}

/-- The consumers that the instances convert to. -/
def convertible (mesh : String) (instances : List NacosInstance) :
    List ServiceConsumerMetadataResource :=
  instances.filterMap fun inst => toServiceConsumerMetadataByMap inst.metadata mesh

variable {r : ServiceConsumerMetadataResource}

theorem mem_convertible :
    r ∈ convertible mesh instances ↔
      ∃ inst ∈ instances, toServiceConsumerMetadataByMap inst.metadata mesh = some r :=
  List.mem_filterMap

/-- What an instance converts to. -/
theorem toServiceConsumerMetadataByMap_eq_some {metadata : StringMap}
    (h : toServiceConsumerMetadataByMap metadata mesh = some r) :
    metadata.lookup interfaceKey = some r.spec.serviceName ∧
      valueAt metadata versionKey = r.spec.version ∧ valueAt metadata groupKey = r.spec.group ∧
      r.spec.metadata = metadata ∧ r.kind = serviceConsumerMetadataKind ∧ r.mesh = mesh ∧
      r.name = buildServiceKey r.spec.serviceName r.spec.version r.spec.group
        (valueAt metadata applicationKey) := by
  unfold toServiceConsumerMetadataByMap at h
  cases hlookup : metadata.lookup interfaceKey with
  | none =>
    rw [hlookup] at h
    cases h
  | some serviceName =>
    rw [hlookup] at h
    cases h
    exact ⟨rfl, rfl, rfl, rfl, rfl, rfl, rfl⟩

theorem exists_toServiceConsumerMetadataByMap {metadata : StringMap}
    (h : metadata.lookup interfaceKey ≠ none) (mesh : String) :
    ∃ r, toServiceConsumerMetadataByMap metadata mesh = some r := by
  obtain ⟨serviceName, hlookup⟩ := Option.ne_none_iff_exists'.mp h
  unfold toServiceConsumerMetadataByMap
  rw [hlookup]
  exact ⟨_, rfl⟩

theorem map_consumerEntry (h : ∀ inst ∈ instances, inst.metadata.lookup interfaceKey ≠ none) :
    instances.map (consumerEntry mesh) = (convertible mesh instances).map entryOf := by
  induction instances with
  | nil => rfl
  | cons inst instances ih =>
    obtain ⟨r, hr⟩ := exists_toServiceConsumerMetadataByMap (h inst List.mem_cons_self) mesh
    have hcons : convertible mesh (inst :: instances) = r :: convertible mesh instances :=
      List.filterMap_cons_some hr
    rw [List.map_cons, ih fun inst hinst => h inst (List.mem_cons_of_mem _ hinst), hcons,
      List.map_cons, consumerEntry, hr]

/-- The map of the entries holds a `nil` pointer where an instance does not convert. -/
theorem nil_mem_ofList {inst : NacosInstance} (hinst : inst ∈ instances)
    (h : inst.metadata.lookup interfaceKey = none) :
    (("", none) : String × Option ServiceConsumerMetadataResource) ∈
      (Keyed.ofList (instances.map (consumerEntry mesh)) :
        ResourceMap ServiceConsumerMetadata).items := by
  have hentry : consumerEntry mesh inst = ("", none) := by
    unfold consumerEntry toServiceConsumerMetadataByMap
    rw [h]
  have hmem : ("", none) ∈ instances.map (consumerEntry mesh) :=
    hentry ▸ List.mem_map_of_mem hinst
  obtain ⟨e, he⟩ := Keyed.exists_get?_ofList Prod.fst hmem
  obtain ⟨hmem, hkey⟩ := Keyed.get?_eq_some_iff.mp he
  -- The keys of resources are not empty, so that only `nil` has the empty key.
  obtain ⟨l₁, l₂, hl, -⟩ := Keyed.mem_ofList.mp hmem
  have hsource : e ∈ instances.map (consumerEntry mesh) := by
    rw [hl]
    exact List.mem_append_right _ List.mem_cons_self
  obtain ⟨inst', -, rfl⟩ := List.mem_map.mp hsource
  unfold consumerEntry at hkey hmem
  cases hconvert : toServiceConsumerMetadataByMap inst'.metadata mesh with
  | none =>
    rw [hconvert] at hmem
    exact hmem
  | some r =>
    rw [hconvert] at hkey
    exact absurd hkey r.resourceKey_ne_empty

/-- A snapshot of the service. -/
structure IsSnapshot (serviceRes : NacosServiceResource) (mesh serviceName version group : String)
    (instances : List NacosInstance) : Prop where
  /-- The interface has no `:`, so that it can be read off the name. -/
  noColon : ':' ∉ serviceName.toList
  mesh_eq : serviceRes.mesh = mesh
  name_eq : serviceRes.name = consumersName serviceName version group
  instances_eq : ∃ spec, serviceRes.spec = some spec ∧ spec.instances = instances

variable {text : NacosServiceResource → String} {serviceRes : NacosServiceResource}
  {walk : WalkOrder (String × Option ServiceConsumerMetadataResource)}

theorem processConsumerMetadataUpsert_eq
    (hsnapshot : IsSnapshot serviceRes mesh serviceName version group instances) :
    processConsumerMetadataUpsert st text (.ok ()) walk serviceRes w =
      reconcile st.toQueryStore walk (equalsAll
        [(byMeshIndex, mesh), (byServiceConsumerServiceNameIndex, serviceName)])
        (Keyed.ofList (instances.map (consumerEntry mesh))) w := by
  obtain ⟨hcolon, rfl, hname, spec, hspec, rfl⟩ := hsnapshot
  unfold processConsumerMetadataUpsert
  rw [hname, parseServiceName_consumersName hcolon]
  rw [hspec]

theorem kind_of_mem_convertible (st : ConsumerStore S) (h : r ∈ convertible mesh instances) :
    r.kind = st.kind := by
  obtain ⟨inst, -, hr⟩ := mem_convertible.mp h
  obtain ⟨-, -, -, -, hkind, -⟩ := toServiceConsumerMetadataByMap_eq_some hr
  rw [hkind, st.kind_eq]

namespace Uniform

variable (h : Uniform st mesh serviceName version group instances w)
include h

/-- A consumer of the snapshot is one of its service, under the key of its application. -/
theorem isConsumerOf {inst : NacosInstance} (hinst : inst ∈ instances)
    {r : ServiceConsumerMetadataResource}
    (hr : toServiceConsumerMetadataByMap inst.metadata mesh = some r) :
    IsConsumerOf mesh serviceName version group r ∧ r.name = buildServiceKey serviceName version
      group (valueAt inst.metadata applicationKey) := by
  obtain ⟨hservice, hversion, hgroup, -, -, hmesh, hname⟩ :=
    toServiceConsumerMetadataByMap_eq_some hr
  obtain ⟨hservice', hversion', hgroup'⟩ := h.named inst hinst
  have hservice'' : r.spec.serviceName = serviceName :=
    Option.some.inj (hservice.symm.trans hservice')
  rw [hservice'', ← hversion, ← hgroup, hversion', hgroup'] at hname
  exact ⟨⟨hmesh, hservice'', hversion.symm.trans hversion', hgroup.symm.trans hgroup'⟩, hname⟩

/-- Consumers of the snapshot with one key are the same. -/
theorem eq_of_key_eq {r r' : ServiceConsumerMetadataResource} (hr : r ∈ convertible mesh instances)
    (hr' : r' ∈ convertible mesh instances) (hkey : r.resourceKey = r'.resourceKey) : r = r' := by
  obtain ⟨i, hi, hr⟩ := mem_convertible.mp hr
  obtain ⟨j, hj, hr'⟩ := mem_convertible.mp hr'
  obtain ⟨⟨hmesh, -⟩, hname⟩ := h.isConsumerOf hi hr
  obtain ⟨⟨hmesh', -⟩, hname'⟩ := h.isConsumerOf hj hr'
  have hlist := congrArg String.toList hkey
  simp only [Resource.resourceKey, buildResourceKey, hmesh, hmesh', hname, hname', buildServiceKey,
    String.toList_append] at hlist
  have happ := String.toList_injective
    (List.append_cancel_left (List.append_cancel_left hlist))
  rw [h.consistent i hi j hj happ] at hr
  exact Option.some.inj (hr.symm.trans hr')

/-- The store follows the snapshot. -/
theorem followed (hsnapshot : IsSnapshot serviceRes mesh serviceName version group instances)
    (hvalid : st.valid w.store) (hexact : st.exact w.store) :
    Followed st mesh serviceName version group instances w
      (processConsumerMetadataUpsert st text (.ok ()) walk serviceRes w) := by
  obtain ⟨found, hfound, hlisting⟩ := st.listOf hvalid hexact mesh serviceName
  have hlisting' : Listing (st.stored w.store)
      (IsConsumerOf mesh serviceName version group) found := by
    refine ⟨fun r => (hlisting.mem_iff r).trans (and_congr_right fun hr => ?_), hlisting.ascending⟩
    exact ⟨fun hname => ⟨hname.1, hname.2, h.alone r hr hname.1 hname.2⟩,
      fun hconsumer => ⟨hconsumer.1, hconsumer.2.1⟩⟩
  have hconvert : ∀ inst ∈ instances, inst.metadata.lookup interfaceKey ≠ none := by
    intro inst hinst
    rw [(h.named inst hinst).1]
    exact Option.some_ne_none _
  obtain ⟨items, hmap, hsub, hkeys⟩ := isMapOf_ofList (convertible mesh instances)
  have hitems : ∀ r, r ∈ items ↔ r ∈ convertible mesh instances := by
    refine fun r => ⟨hsub r, fun hr => ?_⟩
    obtain ⟨item, hitem, hkey⟩ := List.mem_map.mp (hkeys r hr)
    rwa [h.eq_of_key_eq hr (hsub item hitem) hkey.symm]
  have hfree : ∀ r ∈ items, ∀ old ∈ (st.stored w.store).items, old.resourceKey = r.resourceKey →
      IsConsumerOf mesh serviceName version group old := by
    intro r hr old hold hkey
    obtain ⟨inst, hinst, hr⟩ := mem_convertible.mp (hsub r hr)
    obtain ⟨⟨hmesh, -⟩, hname⟩ := h.isConsumerOf hinst hr
    refine h.free inst hinst old hold (hkey.trans ?_)
    rw [Resource.resourceKey, hmesh, hname]
  obtain ⟨w', contents, sent, heq, hleads, hcontents, -⟩ := reconcile_spec walk hvalid hfound
    hlisting' hmap (fun r hr => kind_of_mem_convertible st (hsub r hr)) hfree
  rw [processConsumerMetadataUpsert_eq hsnapshot, map_consumerEntry hconvert, heq]
  have hown : ∀ r ∈ convertible mesh instances, IsConsumerOf mesh serviceName version group r := by
    intro r hr
    obtain ⟨inst, hinst, hr⟩ := mem_convertible.mp hr
    exact (h.isConsumerOf hinst hr).1
  refine ⟨fun _ h => (by cases h), fun r => ?_, fun r hr => ?_⟩
  · rw [hleads.leaves.stored, hcontents, hitems, ← mem_convertible]
    constructor
    · rintro ⟨hr | ⟨-, hother⟩, hconsumer⟩
      · exact hr
      · exact absurd hconsumer hother
    · exact fun hr => ⟨.inl hr, hown r hr⟩
  · rw [hleads.leaves.stored, hcontents, hitems, and_iff_left hr]
    exact or_iff_right fun hconverted => hr (hown r hconverted)

end Uniform

namespace Followed

variable {result : Except Failure Unit × World ServiceConsumerMetadata S}

/-- Where every instance converts, its consumer is stored, under the key of its application. -/
theorem exists_stored (h : Followed st mesh serviceName version group instances w result)
    (hconvert : ∀ inst ∈ instances, inst.metadata.lookup interfaceKey ≠ none) {inst : NacosInstance}
    (hinst : inst ∈ instances) :
    ∃ r, toServiceConsumerMetadataByMap inst.metadata mesh = some r ∧
      r ∈ (st.stored result.2.store).items ∧ IsConsumerOf mesh serviceName version group r ∧
      r.resourceKey = buildResourceKey mesh (buildServiceKey serviceName version group
        (valueAt inst.metadata applicationKey)) := by
  obtain ⟨r, hr⟩ := exists_toServiceConsumerMetadataByMap (hconvert inst hinst) mesh
  obtain ⟨hmem, hconsumer⟩ := (h.own r).mpr ⟨inst, hinst, hr⟩
  refine ⟨r, hr, hmem, hconsumer, ?_⟩
  obtain ⟨hmesh, hservice, hversion, hgroup⟩ := hconsumer
  obtain ⟨-, -, -, -, -, -, hname⟩ := toServiceConsumerMetadataByMap_eq_some hr
  rw [Resource.resourceKey, hname, hmesh, hservice, hversion, hgroup]

/-- So no other consumer has had such a key. -/
theorem free (h : Followed st mesh serviceName version group instances w result)
    (hconvert : ∀ inst ∈ instances, inst.metadata.lookup interfaceKey ≠ none) {inst : NacosInstance}
    (hinst : inst ∈ instances) {old : ServiceConsumerMetadataResource}
    (hold : old ∈ (st.stored w.store).items)
    (hkey : old.resourceKey = buildResourceKey mesh (buildServiceKey serviceName version group
      (valueAt inst.metadata applicationKey))) :
    IsConsumerOf mesh serviceName version group old := by
  by_contra hother
  obtain ⟨r, -, hmem, hconsumer, hrkey⟩ := h.exists_stored hconvert hinst
  have hkept := (h.others old hother).mpr hold
  rw [Keyed.eq_of_key_eq hkept hmem (hkey.trans hrkey.symm)] at hother
  exact hother hconsumer

/-- A call that the store follows is one for a uniform snapshot. -/
theorem uniform (hsnapshot : IsSnapshot serviceRes mesh serviceName version group instances)
    (hvalid : st.valid w.store) (hexact : st.exact w.store)
    (h : Followed st mesh serviceName version group instances w
      (processConsumerMetadataUpsert st text (.ok ()) walk serviceRes w)) :
    Uniform st mesh serviceName version group instances w := by
  obtain ⟨found, hfound, hlisting⟩ := st.listOf hvalid hexact mesh serviceName
  rw [processConsumerMetadataUpsert_eq hsnapshot] at h
  -- Every instance converts, since there is no panic.
  have hconvert : ∀ inst ∈ instances, inst.metadata.lookup interfaceKey ≠ none := by
    intro inst hinst hnone
    obtain ⟨w', hpanic⟩ := reconcile_nil walk hfound (nil_mem_ofList hinst hnone)
      fun r _ => r.resourceKey_ne_empty
    exact h.noPanic _ (congrArg Prod.fst hpanic)
  rw [map_consumerEntry hconvert] at h
  refine ⟨fun inst hinst => ?_, fun i hi j hj happ => ?_, fun r hr hmesh hservice => ?_,
    fun inst hinst old => h.free hconvert hinst⟩
  · obtain ⟨r, hr, -, ⟨-, rfl, rfl, rfl⟩, -⟩ := h.exists_stored hconvert hinst
    obtain ⟨hservice, hversion, hgroup, -⟩ := toServiceConsumerMetadataByMap_eq_some hr
    exact ⟨hservice, hversion, hgroup⟩
  · obtain ⟨r, hr, hmem, -, hkey⟩ := h.exists_stored hconvert hi
    obtain ⟨r', hr', hmem', -, hkey'⟩ := h.exists_stored hconvert hj
    have hsame : r = r' := Keyed.eq_of_key_eq hmem hmem' (by rw [hkey, hkey', happ])
    obtain ⟨-, -, -, hmetadata, -⟩ := toServiceConsumerMetadataByMap_eq_some hr
    obtain ⟨-, -, -, hmetadata', -⟩ := toServiceConsumerMetadataByMap_eq_some hr'
    rw [← hmetadata, ← hmetadata', hsame]
  · by_contra hother
    have hnot : ¬ IsConsumerOf mesh serviceName version group r := fun hconsumer =>
      hother hconsumer.2.2
    obtain ⟨items, hmap, hsub, -⟩ := isMapOf_ofList (convertible mesh instances)
    -- It was found, and it has no key of the snapshot: so it is deleted.
    have hkey : r.resourceKey ∈ found.map Resource.resourceKey :=
      List.mem_map_of_mem ((hlisting.mem_iff r).mpr ⟨hr, hmesh, hservice⟩)
    have hnew : r.resourceKey ∉ items.map Resource.resourceKey := by
      intro hmem
      obtain ⟨item, hitem, hsame⟩ := List.mem_map.mp hmem
      obtain ⟨inst, hinst, hitem⟩ := mem_convertible.mp (hsub item hitem)
      obtain ⟨item', hitem', -, -, hkey'⟩ := h.exists_stored hconvert hinst
      obtain rfl : item = item' := Option.some.inj (hitem.symm.trans hitem')
      exact hnot (h.free hconvert hinst hr (hsame.symm.trans hkey'))
    have hgone := reconcile_absent walk hvalid hfound hlisting hmap
      (fun r hr => kind_of_mem_convertible st (hsub r hr)) hkey hnew
    exact Keyed.get?_eq_none_iff.mp hgone r ((h.others r hnot).mpr hr) rfl

end Followed

/-- The call for a snapshot does not panic and leaves exactly the snapshot's consumers, and all
other consumers as they are, if and only if the snapshot and the stored consumers of the interface
are uniform. -/
theorem consumers_followed_iff (st : ConsumerStore S) (text : NacosServiceResource → String)
    (walk : WalkOrder (String × Option ServiceConsumerMetadataResource))
    (w : World ServiceConsumerMetadata S) (hvalid : st.valid w.store) (hexact : st.exact w.store)
    (hsnapshot : IsSnapshot serviceRes mesh serviceName version group instances) :
    Followed st mesh serviceName version group instances w
        (processConsumerMetadataUpsert st text (.ok ()) walk serviceRes w) ↔
      Uniform st mesh serviceName version group instances w :=
  ⟨fun h => h.uniform hsnapshot hvalid hexact, fun h => h.followed hsnapshot hvalid hexact⟩

end Upsert

/-! ## Two snapshots -/

/-- The metadata of a consumer. -/
def sampleMetadata (app version : String) : StringMap :=
  ((AList.singleton interfaceKey "Greeter").insert applicationKey app).insert versionKey version

/-- The consumer `shop` of version `1`. -/
def shopConsumer : ServiceConsumerMetadataResource :=
  ⟨serviceConsumerMetadataKind, "mesh", "Greeter:1::shop",
    ⟨"Greeter", "shop", "1", "", sampleMetadata "shop" "1"⟩⟩

/-- A store that holds it. -/
def shopWorld : World ServiceConsumerMetadata (Memory.ResourceStore ServiceConsumerMetadata) :=
  ⟨(memoryConsumerStore.add (Memory.init consumerIndexers) shopConsumer).2, []⟩

/-- A snapshot of a version of the service, with one instance. -/
def greeterSnapshot (version : String) (metadata : StringMap) : NacosServiceResource :=
  ⟨nacosServiceKind, "mesh", consumersName "Greeter" version "",
    some ⟨"", [⟨"10.0.0.1", 20880, metadata⟩]⟩⟩

theorem isSnapshot_greeterSnapshot (version : String) (metadata : StringMap) :
    IsSnapshot (greeterSnapshot version metadata) "mesh" "Greeter" version ""
      [⟨"10.0.0.1", 20880, metadata⟩] :=
  ⟨by decide, rfl, rfl, _, rfl, rfl⟩

/-- A snapshot of version `2` deletes the consumer of version `1`, and an instance without metadata
panics. -/
theorem greeter_not_followed :
    (¬ Followed memoryConsumerStore "mesh" "Greeter" "2" ""
      [⟨"10.0.0.1", 20880, sampleMetadata "cart" "2"⟩] shopWorld
      (processConsumerMetadataUpsert memoryConsumerStore (fun _ => "") (.ok ()) (.given _)
        (greeterSnapshot "2" (sampleMetadata "cart" "2")) shopWorld)) ∧
    ¬ Followed memoryConsumerStore "mesh" "Greeter" "1" "" [⟨"10.0.0.1", 20880, ∅⟩] shopWorld
      (processConsumerMetadataUpsert memoryConsumerStore (fun _ => "") (.ok ()) (.given _)
        (greeterSnapshot "1" ∅) shopWorld) := by
  constructor
  · intro h
    have hother : ¬ IsConsumerOf "mesh" "Greeter" "2" "" shopConsumer := by
      unfold IsConsumerOf
      decide
    have hafter := (h.others shopConsumer hother).mpr (List.mem_singleton_self _)
    revert hafter
    decide +kernel
  · intro h
    refine h.noPanic "runtime error: invalid memory address or nil pointer dereference" ?_
    decide +kernel

/-- A snapshot of the version that has the consumer is followed. -/
theorem greeter_followed :
    Followed memoryConsumerStore "mesh" "Greeter" "1" ""
      [⟨"10.0.0.1", 20880, sampleMetadata "cart" "1"⟩] shopWorld
      (processConsumerMetadataUpsert memoryConsumerStore (fun _ => "") (.ok ()) (.given _)
        (greeterSnapshot "1" (sampleMetadata "cart" "1")) shopWorld) := by
  refine (consumers_followed_iff memoryConsumerStore (fun _ => "") (.given _) shopWorld rfl trivial
    (isSnapshot_greeterSnapshot "1" _)).mpr ⟨?_, fun i hi j hj _ => ?_, ?_, ?_⟩
  · decide +kernel
  · rw [List.mem_singleton.mp hi, List.mem_singleton.mp hj]
  · decide +kernel
  · unfold IsConsumerOf
    decide +kernel

end DubboAdmin.Nacos
