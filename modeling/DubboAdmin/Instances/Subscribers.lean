import DubboAdmin.Controller.Informer
import DubboAdmin.Instances.Resource

/-!
# The instance subscribers

`RPCInstanceEventSubscriber` (`pkg/core/discovery/subscriber/rpc_instance.go`) and
`RuntimeInstanceEventSubscriber` (`pkg/core/engine/subscriber/runtime_instance.go`) keep the
instance store up to date with the events of the two sources: an upsert merges the object into its
instance or creates it (`upsertSource`), and a delete clears the source's fields and deletes the
instance where it has no other source (`dropSource`).

An object that the stores return is of the kind that the store is for, so that the type assertions
of the source always succeed here.
-/

namespace DubboAdmin.Instances

open Strings Controller

variable {S R : Type}

/-- The instance store, and the instance events that were sent. -/
abbrev InstanceWorld (S : Type) := World (Labelled Instance) S

/-! ## Events -/

/-- What an event asks for. -/
inductive Change (ρ : Type) where
  | upsert (r : ρ)
  | delete (r : ρ)

/-- The `switch` of `ProcessEvent`, with the error that it returns for a missing object. -/
def changeOf {σ : Type} (missing : String → Failure) (label : String)
    (event : ResourceChangedEvent σ) : Except Failure (Change (Resource σ)) :=
  match event.typ with
  | .deleted =>
    match event.oldObj with
    | none => .error (missing
        ("process " ++ label ++ " delete event, but old obj is nil, skipped processing"))
    | some oldObj => .ok (.delete oldObj)
  | _ =>
    match event.newObj with
    | none => .error (missing
        ("process " ++ label ++ " upsert event, but new obj is nil, skipped processing"))
    | some newObj => .ok (.upsert newObj)

/-- The change of an RPC instance event. -/
def rpcChange (event : ResourceChangedEvent (Option RPCInstance)) :
    Except Failure (Change RPCInstanceResource) :=
  changeOf (fun msg => .err ("[EventError], " ++ msg)) "rpc instance" event

/-- The change of a runtime instance event. -/
def runtimeChange (event : ResourceChangedEvent (Labelled RuntimeInstance)) :
    Except Failure (Change RuntimeInstanceResource) :=
  changeOf .err "runtime instance" event

/-! ## What both subscribers do with the instance that they find -/

/-- A store call that is followed by no event. -/
def saved (w : InstanceWorld S) (result : Except Failure Unit × S) :
    Except Failure Unit × InstanceWorld S :=
  (result.1, { w with store := result.2 })

/-- The end of `processUpsert`: the object is merged into the related instance, or an instance is
created from it, unless `create` says that it does not identify one. -/
def upsertSource (st : InstanceStore S) (w : InstanceWorld S)
    (related : Except Failure (Option InstanceResource))
    (merge : InstanceResource → Except Failure InstanceResource)
    (create : Except Failure (Option InstanceResource)) :
    Except Failure Unit × InstanceWorld S :=
  match related with
  | .error e => (.error e, w)
  | .ok (some instanceRes) =>
    match merge instanceRes with
    | .error e => (.error e, w)
    | .ok instanceRes => saved w (st.update w.store instanceRes)
  | .ok none =>
    match create with
    | .error e => (.error e, w)
    | .ok none => (.ok (), w)
    | .ok (some instanceRes) =>
      Informer.written w (st.add w.store instanceRes) .added none (some instanceRes)

/-- `processDelete`: the source's fields of the related instance are cleared, and the instance is
deleted where it has no other source. -/
def dropSource (st : InstanceStore S) (w : InstanceWorld S)
    (related : Except Failure (Option InstanceResource))
    (clear : InstanceResource → InstanceResource) (hasOtherSource : InstanceResource → Bool) :
    Except Failure Unit × InstanceWorld S :=
  match related with
  | .error e => (.error e, w)
  | .ok none => (.ok (), w)
  | .ok (some instanceRes) =>
    let instanceRes := clear instanceRes
    if hasOtherSource instanceRes then
      Informer.written w (st.update w.store instanceRes) .updated (some instanceRes)
        (some instanceRes)
    else Informer.written w (st.delete w.store instanceRes) .deleted (some instanceRes) none

/-! ## RPC instances -/

def kubernetes : String := "kubernetes"

/-- `RPCInstanceEventSubscriber`, with the type of its engine configuration. -/
structure RPCInstanceEventSubscriber (S R : Type) where
  instanceStore : InstanceStore S
  rtInstanceStore : RuntimeInstanceStore R
  engineType : String

def checkAttributeEnough (rpcInstanceRes : RPCInstanceResource) : Bool :=
  match rpcInstanceRes.spec with
  | none => false
  | some spec =>
    !(isBlank spec.appName || isBlank spec.ip || spec.port ≤ 0 || isBlank rpcInstanceRes.mesh ||
      defaultMesh = rpcInstanceRes.mesh)

namespace RPCInstanceEventSubscriber

def getRelatedInstanceRes (sub : RPCInstanceEventSubscriber S R) (s : S)
    (rpcInstanceRes : RPCInstanceResource) : Except Failure (Option InstanceResource) :=
  sub.instanceStore.getByKey s (buildResourceKey rpcInstanceRes.mesh rpcInstanceRes.name)

/-- `getRuntimeInstanceForInstance`: the first runtime instance with the address that matches the
mesh, application and port, or else the first with the address. -/
def getRuntimeInstanceForInstance (sub : RPCInstanceEventSubscriber S R) (rt : R)
    (instanceRes : InstanceResource) (spec : Instance) : Option RuntimeInstanceResource :=
  match sub.rtInstanceStore.listByIndexes rt [⟨byRuntimeInstanceIPIndex, spec.ip, .equals⟩] with
  | .error _ => none
  | .ok candidates =>
    let exactMatch := candidates.find? fun candidate =>
      match candidate.spec.spec with
      | none => false
      | some candidateSpec =>
        candidate.mesh = instanceRes.mesh && candidateSpec.appName = spec.appName &&
          candidateSpec.rpcPort = spec.rpcPort
    match exactMatch with
    | some candidate => some candidate
    | none => candidates.head?

def findRelatedRuntimeInstanceAndMerge (sub : RPCInstanceEventSubscriber S R) (rt : R)
    (instanceRes : InstanceResource) : Except Failure InstanceResource :=
  if sub.engineType = kubernetes then
    match instanceRes.spec.spec with
    | none => .error nilDereference
    | some spec =>
      match sub.getRuntimeInstanceForInstance rt instanceRes spec with
      | none => .ok instanceRes
      | some rtInstance => mergeRuntimeInstanceIntoInstance rtInstance instanceRes
  else .ok instanceRes

/-- The instance that `processUpsert` creates. -/
def createInstance (sub : RPCInstanceEventSubscriber S R) (rt : R)
    (rpcInstanceRes : RPCInstanceResource) : Except Failure InstanceResource := do
  let instanceRes ← fromRPCInstance rpcInstanceRes
  sub.findRelatedRuntimeInstanceAndMerge rt instanceRes

/-- `processUpsert`, with the runtime store in the state `rt`. -/
def processUpsert (sub : RPCInstanceEventSubscriber S R) (rt : R) (w : InstanceWorld S)
    (rpcInstanceRes : RPCInstanceResource) : Except Failure Unit × InstanceWorld S :=
  if checkAttributeEnough rpcInstanceRes then
    upsertSource sub.instanceStore w (sub.getRelatedInstanceRes w.store rpcInstanceRes)
      (mergeRPCInstanceIntoInstance rpcInstanceRes)
      ((sub.createInstance rt rpcInstanceRes).map some)
  else (.ok (), w)

/-- `processDelete` at the time `now`. -/
def processDelete (sub : RPCInstanceEventSubscriber S R) (now : String) (w : InstanceWorld S)
    (rpcInstanceRes : RPCInstanceResource) : Except Failure Unit × InstanceWorld S :=
  dropSource sub.instanceStore w (sub.getRelatedInstanceRes w.store rpcInstanceRes)
    (clearRPCInstanceFromInstance now) hasRuntimeInstanceSource

def processEvent (sub : RPCInstanceEventSubscriber S R) (rt : R) (now : String)
    (w : InstanceWorld S) (event : ResourceChangedEvent (Option RPCInstance)) :
    Except Failure Unit × InstanceWorld S :=
  match rpcChange event with
  | .error e => (.error e, w)
  | .ok (.upsert newObj) => sub.processUpsert rt w newObj
  | .ok (.delete oldObj) => sub.processDelete now w oldObj

end RPCInstanceEventSubscriber

/-! ## Runtime instances -/

/-- The subscriber to runtime instances. -/
structure RuntimeInstanceEventSubscriber (S : Type) where
  instanceStore : InstanceStore S

/-- `hasRuntimeIdentity`, of a resource with the given spec. -/
def hasRuntimeIdentity (mesh : String) (spec : RuntimeInstance) : Bool :=
  !isBlank spec.appName && !isBlank spec.ip && 0 < spec.rpcPort && !isBlank mesh

def checkAttributesEnough (rtInstanceRes : RuntimeInstanceResource) : Bool :=
  match rtInstanceRes.spec.spec with
  | none => false
  | some spec =>
    !(isBlank spec.appName || isBlank spec.ip || spec.rpcPort ≤ 0 || isBlank rtInstanceRes.mesh ||
      defaultMesh = rtInstanceRes.mesh)

/-- The one element of a list that has no other. -/
def single {α : Type} : List α → Option α
  | [x] => some x
  | _ => none

/-- A lookup, and another one where it succeeds and finds nothing. -/
def firstFound {α : Type} (first second : Except Failure (Option α)) :
    Except Failure (Option α) :=
  match first with
  | .error e => .error e
  | .ok (some x) => .ok (some x)
  | .ok none => second

namespace RuntimeInstanceEventSubscriber

def getRelatedInstanceByName (sub : RuntimeInstanceEventSubscriber S) (s : S) (mesh : String)
    (spec : RuntimeInstance) : Except Failure (Option InstanceResource) :=
  if isBlank spec.appName || isBlank spec.ip || spec.rpcPort ≤ 0 then .ok none
  else do
    let resources ← sub.instanceStore.listByIndexes s [⟨byInstanceNameIndex,
      buildInstanceResName spec.appName spec.ip spec.rpcPort, .equals⟩]
    pure (single (resources.filter fun res => isBlank mesh || res.mesh = mesh))

def getRelatedInstanceByIP (sub : RuntimeInstanceEventSubscriber S) (s : S)
    (spec : RuntimeInstance) : Except Failure (Option InstanceResource) := do
  let resources ← sub.instanceStore.listByIndexes s [⟨byInstanceIpIndex, spec.ip, .equals⟩]
  pure (single resources)

/-- The lookups by key and name in `getRelatedKubernetesInstance`. -/
def getRelatedByIdentity (sub : RuntimeInstanceEventSubscriber S) (s : S) (mesh : String)
    (spec : RuntimeInstance) : Except Failure (Option InstanceResource) :=
  firstFound
    (if !isBlank mesh && defaultMesh ≠ mesh then
      sub.instanceStore.getByKey s (buildResourceKey mesh
        (buildInstanceResName spec.appName spec.ip spec.rpcPort))
    else .ok none)
    (sub.getRelatedInstanceByName s mesh spec)

def getRelatedKubernetesInstance (sub : RuntimeInstanceEventSubscriber S) (s : S) (mesh : String)
    (spec : RuntimeInstance) : Except Failure (Option InstanceResource) :=
  firstFound
    (if hasRuntimeIdentity mesh spec then sub.getRelatedByIdentity s mesh spec else .ok none)
    (sub.getRelatedInstanceByIP s spec)

def getRelatedInstance (sub : RuntimeInstanceEventSubscriber S) (s : S)
    (rtInstanceRes : RuntimeInstanceResource) : Except Failure (Option InstanceResource) :=
  match rtInstanceRes.spec.spec with
  | none => .ok none
  | some spec =>
    if spec.sourceEngineType = kubernetes then
      sub.getRelatedKubernetesInstance s rtInstanceRes.mesh spec
    else sub.getRelatedInstanceByName s rtInstanceRes.mesh spec

def processUpsert (sub : RuntimeInstanceEventSubscriber S) (w : InstanceWorld S)
    (rtInstanceRes : RuntimeInstanceResource) : Except Failure Unit × InstanceWorld S :=
  upsertSource sub.instanceStore w (sub.getRelatedInstance w.store rtInstanceRes)
    (mergeRuntimeInstanceIntoInstance rtInstanceRes)
    (if checkAttributesEnough rtInstanceRes then (fromRuntimeInstance rtInstanceRes).map some
      else .ok none)

def processDelete (sub : RuntimeInstanceEventSubscriber S) (w : InstanceWorld S)
    (rtInstanceRes : RuntimeInstanceResource) : Except Failure Unit × InstanceWorld S :=
  dropSource sub.instanceStore w (sub.getRelatedInstance w.store rtInstanceRes)
    clearRuntimeInstanceFromInstance hasRPCInstanceSource

def processEvent (sub : RuntimeInstanceEventSubscriber S) (w : InstanceWorld S)
    (event : ResourceChangedEvent (Labelled RuntimeInstance)) :
    Except Failure Unit × InstanceWorld S :=
  match runtimeChange event with
  | .error e => (.error e, w)
  | .ok (.upsert newObj) => sub.processUpsert w newObj
  | .ok (.delete oldObj) => sub.processDelete w oldObj

end RuntimeInstanceEventSubscriber

/-! ## What they leave in the store -/

section Effects

variable {st : InstanceStore S} {w : InstanceWorld S} {inst old : InstanceResource}
  {merge : InstanceResource → Except Failure InstanceResource}
  {create : Except Failure (Option InstanceResource)}
  {clear : InstanceResource → InstanceResource} {hasOtherSource : InstanceResource → Bool}

theorem upsertSource_merge (hmerge : merge old = .ok inst) (hvalid : st.valid w.store)
    (hkind : inst.kind = instanceKind)
    (hold : (st.stored w.store).get? inst.resourceKey = some old) :
    ∃ s', upsertSource st w (.ok (some old)) merge create = (.ok (), { w with store := s' }) ∧
      st.Leaves w.store ((st.stored w.store).put inst) s' := by
  obtain ⟨hok, hleaves⟩ := st.update_spec w.store inst old hvalid (hkind.trans st.kind_eq.symm) hold
  refine ⟨(st.update w.store inst).2, ?_, hleaves⟩
  simp only [upsertSource, hmerge, saved, hok]

/-- Creating an instance under a new key adds it, and emits that it was added. -/
theorem upsertSource_create (hcreate : create = .ok (some inst)) (hvalid : st.valid w.store)
    (hkind : inst.kind = instanceKind)
    (hnew : (st.stored w.store).get? inst.resourceKey = none) :
    ∃ s', upsertSource st w (.ok none) merge create =
        (.ok (), { w with store := s' }.emitEvent .added none (some inst)) ∧
      st.Leaves w.store ((st.stored w.store).put inst) s' := by
  obtain ⟨hok, hleaves⟩ := st.add_spec w.store inst hvalid (hkind.trans st.kind_eq.symm) hnew
  refine ⟨(st.add w.store inst).2, ?_, hleaves⟩
  have hresult : st.add w.store inst = (.ok (), (st.add w.store inst).2) := Prod.ext hok rfl
  simp only [upsertSource, hcreate]
  rw [hresult]
  rfl

/-- Clearing one of two sources overwrites the instance, and emits the cleared one twice. -/
theorem dropSource_clear (hother : hasOtherSource (clear old) = true) (hvalid : st.valid w.store)
    (hkind : (clear old).kind = instanceKind)
    (hold : (st.stored w.store).get? (clear old).resourceKey = some old) :
    ∃ s', dropSource st w (.ok (some old)) clear hasOtherSource =
        (.ok (), { w with store := s' }.emitEvent .updated (some (clear old)) (some (clear old))) ∧
      st.Leaves w.store ((st.stored w.store).put (clear old)) s' := by
  obtain ⟨hok, hleaves⟩ :=
    st.update_spec w.store (clear old) old hvalid (hkind.trans st.kind_eq.symm) hold
  refine ⟨(st.update w.store (clear old)).2, ?_, hleaves⟩
  have hresult : st.update w.store (clear old) = (.ok (), (st.update w.store (clear old)).2) :=
    Prod.ext hok rfl
  simp only [dropSource, hother, if_true]
  rw [hresult]
  rfl

/-- Clearing the last source deletes the instance, and emits the cleared one. -/
theorem dropSource_delete (hother : hasOtherSource (clear old) = false) (hvalid : st.valid w.store)
    (hold : (st.stored w.store).get? (clear old).resourceKey = some old) :
    ∃ s', dropSource st w (.ok (some old)) clear hasOtherSource =
        (.ok (), { w with store := s' }.emitEvent .deleted (some (clear old)) none) ∧
      st.Leaves w.store ((st.stored w.store).erase (clear old).resourceKey) s' := by
  have hok := st.delete_ok w.store (clear old) old hvalid hold
  refine ⟨(st.delete w.store (clear old)).2, ?_, st.delete_spec w.store (clear old) hvalid⟩
  have hresult : st.delete w.store (clear old) = (.ok (), (st.delete w.store (clear old)).2) :=
    Prod.ext hok rfl
  simp only [dropSource, hother, Bool.false_eq_true, if_false]
  rw [hresult]
  rfl

end Effects

/-! ## The lookups -/

theorem RPCInstanceEventSubscriber.getRelatedInstanceRes_eq (sub : RPCInstanceEventSubscriber S R)
    (s : S) (rpcInstanceRes : RPCInstanceResource) :
    sub.getRelatedInstanceRes s rpcInstanceRes = .ok ((sub.instanceStore.stored s).get?
      (buildResourceKey rpcInstanceRes.mesh rpcInstanceRes.name)) :=
  sub.instanceStore.getByKey_eq s _

section Lookups

variable {sub : RuntimeInstanceEventSubscriber S} {s : S} {mesh : String} {spec : RuntimeInstance}

theorem single_eq_some {α : Type} {l : List α} {x : α} (h : single l = some x) : l = [x] := by
  match l with
  | [] => exact nomatch h
  | [y] => rw [Option.some.inj h]
  | _ :: _ :: _ => exact nomatch h

theorem firstFound_eq_none {α : Type} {first second : Except Failure (Option α)}
    (h : firstFound first second = .ok none) : first = .ok none ∧ second = .ok none := by
  match first with
  | .error _ | .ok (some _) => exact nomatch h
  | .ok none => exact ⟨rfl, h⟩

/-- The name of a runtime instance's instance, where it has what makes up the name. -/
def identifies (spec : RuntimeInstance) : Bool :=
  !(isBlank spec.appName || isBlank spec.ip || spec.rpcPort ≤ 0)

/-- The lookup by name finds an instance that is the only one of its name, in the mesh if the
runtime instance has one. -/
theorem getRelatedInstanceByName_spec (sub : RuntimeInstanceEventSubscriber S)
    (hvalid : sub.instanceStore.valid s)
    (hexact : sub.instanceStore.exact s) (mesh : String) (spec : RuntimeInstance) :
    ∃ out : List InstanceResource, sub.getRelatedInstanceByName s mesh spec = .ok (single out) ∧
      out.Nodup ∧ ∀ r, r ∈ out ↔ identifies spec = true ∧
        r ∈ (sub.instanceStore.stored s).items ∧ (isBlank mesh = true ∨ r.mesh = mesh) ∧
        buildInstanceResName spec.appName spec.ip spec.rpcPort ∈
          instanceIndexers.values byInstanceNameIndex r := by
  have hreg : byInstanceNameIndex ∈ sub.instanceStore.indexers := by
    rw [sub.instanceStore.indexers_eq, ← AList.lookup_isSome]
    rfl
  obtain ⟨resources, hlist, hlisting⟩ := sub.instanceStore.listByIndexes_equals s
    byInstanceNameIndex (buildInstanceResName spec.appName spec.ip spec.rpcPort) hvalid hexact hreg
  rw [sub.instanceStore.indexers_eq] at hlisting
  unfold RuntimeInstanceEventSubscriber.getRelatedInstanceByName
  split_ifs with hblank
  · refine ⟨[], rfl, List.nodup_nil, fun r => ?_⟩
    simp [identifies, hblank]
  · refine ⟨resources.filter fun res => isBlank mesh || res.mesh = mesh, ?_,
      hlisting.ascending.nodup.of_map.filter _, fun r => ?_⟩
    · rw [hlist]
      rfl
    · have hident : identifies spec = true := by simp [identifies, hblank]
      rw [List.mem_filter, hlisting.mem_iff]
      simp only [hident, true_and, Bool.or_eq_true, decide_eq_true_eq]
      tauto

/-- The lookup by address finds an instance that is the only one with the address. -/
theorem getRelatedInstanceByIP_spec (sub : RuntimeInstanceEventSubscriber S)
    (hvalid : sub.instanceStore.valid s)
    (hexact : sub.instanceStore.exact s) (spec : RuntimeInstance) :
    ∃ out : List InstanceResource, sub.getRelatedInstanceByIP s spec = .ok (single out) ∧
      ∀ r, r ∈ out ↔ r ∈ (sub.instanceStore.stored s).items ∧
        spec.ip ∈ instanceIndexers.values byInstanceIpIndex r := by
  have hreg : byInstanceIpIndex ∈ sub.instanceStore.indexers := by
    rw [sub.instanceStore.indexers_eq, ← AList.lookup_isSome]
    rfl
  obtain ⟨resources, hlist, hlisting⟩ := sub.instanceStore.listByIndexes_equals s
    byInstanceIpIndex spec.ip hvalid hexact hreg
  rw [sub.instanceStore.indexers_eq] at hlisting
  refine ⟨resources, ?_, hlisting.mem_iff⟩
  unfold RuntimeInstanceEventSubscriber.getRelatedInstanceByIP
  rw [hlist]
  rfl

/-- A lookup succeeds, and what it finds is stored. -/
def FindsStored (st : InstanceStore S) (s : S)
    (related : Except Failure (Option InstanceResource)) : Prop :=
  ∃ found, related = .ok found ∧ ∀ old, found = some old → old ∈ (st.stored s).items

/-- So does a lookup of the only one of some stored instances. -/
theorem FindsStored.of_single {st : InstanceStore S}
    {related : Except Failure (Option InstanceResource)} {out : List InstanceResource}
    (hrelated : related = .ok (single out)) (hout : ∀ r ∈ out, r ∈ (st.stored s).items) :
    FindsStored st s related := by
  refine ⟨single out, hrelated, fun old hold => hout old ?_⟩
  rw [single_eq_some hold]
  exact List.mem_singleton_self old

/-- The lookup by name finds what is stored. -/
theorem getRelatedInstanceByName_stored (hvalid : sub.instanceStore.valid s)
    (hexact : sub.instanceStore.exact s) (mesh : String) (spec : RuntimeInstance) :
    FindsStored sub.instanceStore s (sub.getRelatedInstanceByName s mesh spec) := by
  obtain ⟨out, hout, -, hmem⟩ := getRelatedInstanceByName_spec sub hvalid hexact mesh spec
  exact .of_single hout fun r hr => ((hmem r).mp hr).2.1

/-- The lookup by address finds what is stored. -/
theorem getRelatedInstanceByIP_stored (hvalid : sub.instanceStore.valid s)
    (hexact : sub.instanceStore.exact s) (spec : RuntimeInstance) :
    FindsStored sub.instanceStore s (sub.getRelatedInstanceByIP s spec) := by
  obtain ⟨out, hout, hmem⟩ := getRelatedInstanceByIP_spec sub hvalid hexact spec
  exact .of_single hout fun r hr => ((hmem r).mp hr).1

theorem FindsStored.firstFound {st : InstanceStore S}
    {first second : Except Failure (Option InstanceResource)} (h₁ : FindsStored st s first)
    (h₂ : FindsStored st s second) : FindsStored st s (firstFound first second) := by
  obtain ⟨found, rfl, hstored⟩ := h₁
  cases found with
  | none => exact h₂
  | some inst => exact ⟨some inst, rfl, hstored⟩

theorem FindsStored.ite {st : InstanceStore S} {c : Bool}
    {related : Except Failure (Option InstanceResource)} (h : FindsStored st s related) :
    FindsStored st s (if c then related else .ok none) := by
  cases c with
  | false => exact ⟨none, rfl, nofun⟩
  | true => exact h

theorem getByKey_stored (st : InstanceStore S) (s : S) (key : String) :
    FindsStored st s (st.getByKey s key) :=
  ⟨_, st.getByKey_eq s key, fun _ hold => (Keyed.get?_eq_some_iff.mp hold).1⟩

/-- What `getRelatedInstance` finds is stored. -/
theorem getRelatedInstance_stored (sub : RuntimeInstanceEventSubscriber S)
    (hvalid : sub.instanceStore.valid s)
    (hexact : sub.instanceStore.exact s) (rtInstanceRes : RuntimeInstanceResource) :
    FindsStored sub.instanceStore s (sub.getRelatedInstance s rtInstanceRes) := by
  unfold RuntimeInstanceEventSubscriber.getRelatedInstance
  cases rtInstanceRes.spec.spec with
  | none => exact ⟨none, rfl, nofun⟩
  | some spec =>
    have hname := getRelatedInstanceByName_stored hvalid hexact rtInstanceRes.mesh spec
    have hip := getRelatedInstanceByIP_stored hvalid hexact spec
    dsimp only
    split_ifs
    · exact (((getByKey_stored _ s _).ite.firstFound hname).ite).firstFound hip
    · exact hname

/-- Where a runtime instance with all its attributes has no related instance, the lookup by name
has found none either. -/
theorem getRelatedInstanceByName_of_none {rtInstanceRes : RuntimeInstanceResource}
    (hspec : rtInstanceRes.spec.spec = some spec)
    (henough : checkAttributesEnough rtInstanceRes = true)
    (hnone : sub.getRelatedInstance s rtInstanceRes = .ok none) :
    sub.getRelatedInstanceByName s rtInstanceRes.mesh spec = .ok none := by
  unfold RuntimeInstanceEventSubscriber.getRelatedInstance at hnone
  rw [hspec] at hnone
  dsimp only at hnone
  split_ifs at hnone with hengine
  · have hident : hasRuntimeIdentity rtInstanceRes.mesh spec = true := by
      unfold checkAttributesEnough at henough
      rw [hspec] at henough
      simp only [Bool.not_or, Bool.and_eq_true, Bool.not_eq_true', decide_eq_false_iff_not,
        not_le] at henough
      obtain ⟨⟨⟨⟨happ, hip⟩, hport⟩, hmesh⟩, -⟩ := henough
      simp [hasRuntimeIdentity, happ, hip, hport, hmesh]
    unfold RuntimeInstanceEventSubscriber.getRelatedKubernetesInstance at hnone
    rw [if_pos hident] at hnone
    -- The lookups come one after the other, and none of them has found anything.
    exact (firstFound_eq_none (firstFound_eq_none hnone).1).2
  · exact hnone

end Lookups

end DubboAdmin.Instances
