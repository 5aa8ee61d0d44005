import DubboAdmin.Console.Counter

/-!
# The number of instances

`Count` and `CountByMesh` of the counter manager, over the events that the two instance subscribers
send. Unlike the distributions, the number of instances needs no more of an event than that it comes
when an instance is new or gone. An instance is added only under a key that is free, although the
runtime subscriber looks for a related instance by name and address and not only by key
(`fromRuntimeInstance_new`), and deleted only where it is stored (`CountExact.effect`).
-/

namespace DubboAdmin.Console

open Strings Controller Instances

variable {S R : Type}

/-- The number of stored instances, in total and by mesh. -/
structure CountsStored (st : InstanceStore S) (x : CountedStore S) : Prop where
  count_eq : x.counters.count instanceKind = (st.stored x.store).items.length
  countByMesh_eq : ∀ mesh, mesh ≠ "" → x.counters.countByMesh instanceKind mesh =
    (st.stored x.store).items.countP fun r => r.mesh = mesh

/-- The events that the sources send: meshes are no paths, and RPC instances are named as they are
built. A delete may name anything. -/
def FromSources : InstanceAction R → Prop
  | .rpc _ _ event => match rpcChange event with
    | .ok (.upsert newObj) => '/' ∉ newObj.mesh.toList ∧ NamedAsBuilt newObj
    | _ => True
  | .runtime event => match runtimeChange event with
    | .ok (.upsert newObj) => '/' ∉ newObj.mesh.toList
    | _ => True

/-! ## Effects -/

/-- An instance as the subscribers store it, in a mesh. -/
structure InMesh (r : InstanceResource) : Prop where
  named : WellNamed r
  mesh_ne : r.mesh ≠ ""

theorem InMesh.of_place {old inst : InstanceResource} (hold : InMesh old)
    (h : WellNamed inst ∧ SamePlace old inst) : InMesh inst ∧ SamePlace old inst :=
  ⟨⟨h.1, h.2.mesh_eq ▸ hold.mesh_ne⟩, h.2⟩

/-- The store is well formed, and its instances have meshes. -/
structure Meshed (st : InstanceStore S) (s : S) : Prop extends Tidy st s where
  inMesh : ∀ r ∈ (st.stored s).items, InMesh r

theorem ne_empty_of_not_isBlank {mesh : String} (h : isBlank mesh = false) : mesh ≠ "" := by
  rintro rfl
  exact absurd h (by decide)

theorem mesh_ne_of_checkAttributeEnough {rpcInstanceRes : RPCInstanceResource}
    (h : checkAttributeEnough rpcInstanceRes = true) : rpcInstanceRes.mesh ≠ "" := by
  unfold checkAttributeEnough at h
  cases hspec : rpcInstanceRes.spec with
  | none =>
    rw [hspec] at h
    exact nomatch h
  | some spec =>
    rw [hspec] at h
    simp only [Bool.not_or, Bool.and_eq_true, Bool.not_eq_true'] at h
    exact ne_empty_of_not_isBlank h.1.2

theorem mesh_ne_of_checkAttributesEnough {rtInstanceRes : RuntimeInstanceResource}
    (h : checkAttributesEnough rtInstanceRes = true) : rtInstanceRes.mesh ≠ "" := by
  unfold checkAttributesEnough at h
  cases hspec : rtInstanceRes.spec.spec with
  | none =>
    rw [hspec] at h
    exact nomatch h
  | some spec =>
    rw [hspec] at h
    simp only [Bool.not_or, Bool.and_eq_true, Bool.not_eq_true'] at h
    exact ne_empty_of_not_isBlank h.1.2

section Processing

variable {sub : RPCInstanceEventSubscriber S R} {s : S}

/-- Processing an event stores an instance at a new place, overwrites it at its place, or deletes
it. -/
theorem processAction_place (h : Meshed sub.instanceStore s) {a : InstanceAction R}
    (ha : FromSources a) :
    EffectOf InMesh SamePlace sub.instanceStore s (processAction sub s a) := by
  have hplaces : Places InMesh SamePlace :=
    ⟨fun _ hin => hin.named.kind_eq, fun _ _ hsame => hsame.resourceKey_eq⟩
  cases a with
  | rpc rt now event =>
    unfold FromSources at ha
    unfold processAction RPCInstanceEventSubscriber.processEvent
    dsimp only at ha ⊢
    cases hchange : rpcChange event with
    | error e => exact .skipped
    | ok change =>
      rw [hchange] at ha
      cases change with
      | upsert newObj =>
        refine rpcUpsert_effect hplaces h.toTidy rt (fun _ old inst hold hmerge => ?_)
          fun henough inst hcreate => ?_
        · have hin := h.inMesh old (Keyed.get?_eq_some_iff.mp hold).1
          exact hin.of_place (mergeRPC_place hin.named hmerge).1
        · obtain ⟨hnamed, hmesh, hname⟩ := createInstance_named ha.1 ha.2 hcreate
          refine ⟨⟨hnamed, ?_⟩, hmesh, hname⟩
          rw [hmesh]
          exact mesh_ne_of_checkAttributeEnough henough
      | delete oldObj =>
        refine rpcDelete_effect hplaces h.toTidy now fun old hold => ?_
        have hin := h.inMesh old (Keyed.get?_eq_some_iff.mp hold).1
        exact hin.of_place (clearRPC_place hin.named now).1
  | runtime event =>
    unfold FromSources at ha
    unfold processAction RuntimeInstanceEventSubscriber.processEvent
    dsimp only at ha ⊢
    cases hchange : runtimeChange event with
    | error e => exact .skipped
    | ok change =>
      rw [hchange] at ha
      cases change with
      | upsert newObj =>
        refine runtimeUpsert_effect hplaces h.toTidy (fun _ => ha) (fun old inst hold hmerge => ?_)
          fun henough inst hcreated => ?_
        · have hin := h.inMesh old hold
          exact hin.of_place ((mergeRuntime_keeps hin.named hmerge).imp_right (·.toSamePlace))
        · refine ⟨hcreated.1, ?_⟩
          rw [hcreated.2]
          exact mesh_ne_of_checkAttributesEnough henough
      | delete oldObj =>
        refine runtimeDelete_effect hplaces h.toTidy oldObj fun old hold => ?_
        have hin := h.inMesh old hold
        exact hin.of_place ((clearRuntime_keeps hin.named).imp_right (·.toSamePlace))

end Processing

/-! ## The count follows -/

/-- The invariant: the store is well formed, and the manager counts its instances by mesh. -/
structure CountExact (st : InstanceStore S) (x : CountedStore S) : Prop where
  meshed : Meshed st x.store
  counts : CountsMeshes x.counters (storedMeshes (st.stored x.store))

section Following

variable {st : InstanceStore S} {x : CountedStore S}

theorem Fresh.countExact (h : Fresh st x) : CountExact st x where
  meshed := by
    refine ⟨⟨h.valid, h.exact, fun r hr => ?_⟩, fun r hr => ?_⟩ <;>
    · rw [h.empty] at hr
      exact nomatch hr
  counts := by
    have hnone : storedMeshes (st.stored x.store) = 0 := by
      unfold storedMeshes
      rw [h.empty]
      rfl
    rw [h.counters, hnone]
    exact ⟨by decide, ∅, rfl, Tally.counts_empty⟩

theorem CountExact.withStore (h : CountExact st x) {s' : S}
    {contents : Contents (Labelled Instance)} {cm : CounterManager}
    (hleaves : st.Leaves x.store contents s') (hin : ∀ r ∈ contents.items, InMesh r)
    (hcounts : CountsMeshes cm (storedMeshes contents)) : CountExact st ⟨s', cm⟩ where
  meshed := by
    rw [← hleaves.stored] at hin
    exact ⟨⟨hleaves.valid, hleaves.exact h.meshed.exact, fun r hr => (hin r hr).named⟩, hin⟩
  counts := by
    rw [hleaves.stored]
    exact hcounts

theorem CountExact.inMesh_put (h : CountExact st x) {inst : InstanceResource}
    (hin : InMesh inst) : ∀ r ∈ ((st.stored x.store).put inst).items, InMesh r := by
  intro r hr
  rcases Keyed.mem_put.mp hr with rfl | ⟨hr, -⟩
  · exact hin
  · exact h.meshed.inMesh r hr

/-- The count follows every effect. -/
theorem CountExact.effect (h : CountExact st x) {w : InstanceWorld S}
    (heffect : EffectOf InMesh SamePlace st x.store w) :
    CountExact st ⟨w.store, deliver w.events x.counters⟩ := by
  cases heffect with
  | skipped => exact h
  | @merged old inst s' hold hin hsame hleaves =>
    -- No event is sent, and none is needed.
    have hmeshes := storedMeshes_put_of_same hold hsame.mesh_eq
    exact h.withStore hleaves (h.inMesh_put hin) (hmeshes ▸ h.counts)
  | @created inst s' hnew hin hleaves =>
    exact h.withStore hleaves (h.inMesh_put hin) (h.counts.added hnew)
  | @cleared old inst s' hold hin hsame hleaves =>
    exact h.withStore hleaves (h.inMesh_put hin) (h.counts.updated hold hsame.mesh_eq)
  | @deleted old inst s' hold hsame hleaves =>
    have hin : ∀ r ∈ ((st.stored x.store).erase inst.resourceKey).items, InMesh r :=
      fun r hr => h.meshed.inMesh r (Keyed.mem_erase.mp hr).1
    exact h.withStore hleaves hin (h.counts.deleted hold hsame.mesh_eq)

/-- What the manager answers, where it counts the instances by mesh. -/
theorem CountExact.countsStored (h : CountExact st x) : CountsStored st x := by
  constructor
  · rw [h.counts.count_eq, card_storedMeshes]
  · intro mesh hmesh
    have hgroup : groupName (groupName mesh) = mesh := by simp [groupName, hmesh]
    -- Stored meshes are not empty, so none of them is grouped under the default name.
    have hstored : (storedMeshes (st.stored x.store)).count mesh =
        (st.stored x.store).items.countP fun r => r.mesh = mesh := by
      unfold storedMeshes
      rw [Multiset.coe_count, List.count, List.countP_map]
      refine List.countP_congr fun r hr => ?_
      have hin := (h.meshed.inMesh r hr).mesh_ne
      simp [extractMeshName, hin]
    rw [h.counts.countByMesh_eq, hgroup, hstored]

end Following

/-- In every run from an empty store, the number of instances is that of the store, in total and in
each mesh. -/
theorem instances_counted {sub : RPCInstanceEventSubscriber S R} {x₀ x : CountedStore S}
    {actions : List (InstanceAction R)} (hfresh : Fresh sub.instanceStore x₀)
    (hsources : ∀ a ∈ actions, FromSources a) (hrun : Run (CountStep sub) x₀ actions x) :
    CountsStored sub.instanceStore x := by
  have hexact : CountExact sub.instanceStore x := by
    refine hrun.invariant_of_mem (CountExact sub.instanceStore) hfresh.countExact ?_
    rintro s a ha _ h rfl
    exact h.effect (processAction_place h.meshed (hsources a ha))
  exact hexact.countsStored

/-- The sample pod and its registration, in either order, are one instance. -/
theorem instances_counted_registered :
    ∃ x, Run (CountStep sampleRPCSubscriber) sampleCounted
        [sampleDeployed, sampleRegistered, sampleUndeployed] x ∧
      CountsStored memoryInstanceStore x ∧ x.counters.count instanceKind = 1 := by
  have hregistered : FromSources sampleRegistered := by
    refine ⟨by decide, ?_⟩
    intro spec hspec
    cases hspec
    exact ⟨by decide +kernel, rfl⟩
  have hdeployed : FromSources sampleDeployed := by
    show '/' ∉ sampleRuntime.res.mesh.toList
    decide
  have h₁ : Run (CountStep sampleRPCSubscriber) sampleCounted [sampleDeployed] _ :=
    Run.nil.snoc rfl
  have h₂ := h₁.snoc (a := sampleRegistered) rfl
  have h₃ := h₂.snoc (a := sampleUndeployed) rfl
  have hcounts : CountsStored sampleRPCSubscriber.instanceStore _ :=
    instances_counted sampleCounted_fresh (by simp [hregistered, hdeployed]; trivial) h₃
  exact ⟨_, h₃, hcounts, by decide +kernel⟩

end DubboAdmin.Console
