import DubboAdmin.Console.CounterInit

/-!
# Counting on several replicas

Replicas that share a database elect a leader for discovery and another one for counting. Only the
discovery leader changes the instance store, and sends the events of its changes on the bus of its
own process. Only the counter leader counts: `onStartLeading` of
`pkg/console/counter/component.go` resets the manager, counts what `List` returns and subscribes to
the bus, once in the life of the process.

The count is therefore that of the store as long as the replica that counts is the discovery leader
at every change, has finished loading by then, and had no event left to send when it began
(`HearsAll`). Loading the other kinds of resources is left out.
-/

namespace DubboAdmin.Console.Replicas

open Controller Instances

variable {ι S : Type}

/-! ## Replicas -/

/-- Where the counter component is in a term of leadership. -/
inductive Phase where
  /-- It does not lead. -/
  | idle
  /-- `onStartLeading` has set `isLeader`. -/
  | elected
  /-- `startBusinessLogic` has reset the manager and handed it `isLeader`. -/
  | cleared
  /-- `initializeResourceCount` has listed the instances, and has these left to count. -/
  | loading (rest : List InstanceResource)
  /-- `startBusinessLogic` has returned. -/
  | leading
deriving DecidableEq

/-- The counter component of a replica, and the bus of its process. -/
structure Replica where
  phase : Phase
  isLeader : Bool
  bound : Bool
  manager : CounterManager
  /-- The events of the changes made by this replica that were not sent yet, the oldest first. -/
  pending : List (ResourceChangedEvent (Labelled Instance))

namespace Replica

/-- A new process. -/
def start : Replica := ⟨.idle, false, false, .newCounterManager, []⟩

/-- `isLeader.Store`, of the flag that the manager reads once it was handed it. -/
def storeLeader (r : Replica) (value : Bool) : Replica :=
  { r with
    isLeader := value
    manager := { r.manager with isLeader := r.manager.isLeader.map fun _ => value } }

/-- The next step of the counter component: the steps of `onStartLeading` and of
`startBusinessLogic` in their order, then `onStopLeading`. -/
def next (allResources : List InstanceResource) (r : Replica) : Replica :=
  match r.phase with
  | .idle => { r.storeLeader true with phase := .elected }
  | .elected =>
    { r with phase := .cleared, manager := { r.manager.reset with isLeader := some r.isLeader } }
  | .cleared => { r with phase := .loading allResources }
  | .loading (resource :: rest) =>
    { r with phase := .loading rest, manager := r.manager.loadResource resource }
  | .loading [] => { r with phase := .leading, bound := true }
  | .leading =>
    let stopped := r.storeLeader false
    { stopped with phase := .idle, manager := stopped.manager.reset }

/-- `Send` of an event: the manager handles it if it has subscribed. -/
def send (r : Replica) (event : ResourceChangedEvent (Labelled Instance)) : Replica :=
  if r.bound then { r with manager := r.manager.handleEvent instanceKind event } else r

end Replica

/-! ## The cluster -/

/-- A change of the instance store. -/
inductive Change where
  | added (res : InstanceResource)
  | updated (res : InstanceResource)
  | deleted (res : InstanceResource)

/-- The store after a change that succeeds, and the event that the change is followed by. -/
def Change.apply (st : LawfulStore (Labelled Instance) S) (s : S) :
    Change → Option (S × ResourceChangedEvent (Labelled Instance))
  | .added res =>
    match st.add s res with
    | (.ok _, s') => some (s', ⟨.added, none, some res⟩)
    | (.error _, _) => none
  | .updated res =>
    match (st.stored s).get? res.resourceKey, st.update s res with
    | some old, (.ok _, s') => some (s', ⟨.updated, some old, some res⟩)
    | _, _ => none
  | .deleted res =>
    match (st.stored s).get? res.resourceKey, st.delete s res with
    | some old, (.ok _, s') => some (s', ⟨.deleted, some old, none⟩)
    | _, _ => none

/-- The instance of a change. -/
def Change.res : Change → InstanceResource
  | .added res | .updated res | .deleted res => res

/-- The replicas, their database and the leader of the discovery component. -/
structure Cluster (ι S : Type) where
  store : S
  discoveryLeader : Option ι
  replica : ι → Replica

/-- What happens next. -/
inductive Action (ι : Type) where
  /-- Another replica leads the discovery, or none. -/
  | elect (discoveryLeader : Option ι)
  | change (c : Change)
  /-- A replica sends its oldest pending event. -/
  | send (i : ι)
  /-- The counter component of a replica takes its next step. -/
  | counter (i : ι)

section Steps

variable [DecidableEq ι] (st : LawfulStore (Labelled Instance) S)

/-- The cluster with another state of one replica. -/
def Cluster.set (x : Cluster ι S) (i : ι) (r : Replica) : Cluster ι S :=
  { x with replica := Function.update x.replica i r }

/-- A replica changes the store, and has the event of the change to send. -/
def Cluster.change (x : Cluster ι S) (i : ι) (c : Change) : Option (Cluster ι S) :=
  if c.res.kind = st.kind then
    match c.apply st x.store with
    | none => none
    | some (s', event) =>
      let r := x.replica i
      some ({ x with store := s' }.set i { r with pending := r.pending ++ [event] })
  else none

/-- One step, if it can be taken. -/
def Cluster.next (x : Cluster ι S) : Action ι → Option (Cluster ι S)
  | .elect discoveryLeader => some { x with discoveryLeader := discoveryLeader }
  | .change c =>
    match x.discoveryLeader with
    | none => none
    | some i => x.change st i c
  | .send i =>
    match (x.replica i).pending with
    | [] => none
    | event :: rest => some (x.set i { (x.replica i).send event with pending := rest })
  | .counter i => some (x.set i ((x.replica i).next (st.stored x.store).items))

/-- One step. -/
def ClusterStep (x : Cluster ι S) (a : Action ι) (x' : Cluster ι S) : Prop := x.next st a = some x'

end Steps

/-- Every replica is a new process, over any contents of the database. -/
structure Started (st : LawfulStore (Labelled Instance) S) (x : Cluster ι S) : Prop where
  valid : st.valid x.store
  fresh : ∀ i, x.replica i = .start

/-- Whenever no event is pending, a replica that leads the counting counts what is stored. -/
def CountsShared (st : LawfulStore (Labelled Instance) S) (x : Cluster ι S) : Prop :=
  (∀ i, (x.replica i).pending = []) → ∀ i, (x.replica i).phase = .leading →
    (x.replica i).manager.count instanceKind = (st.stored x.store).items.length

/-- An update leaves the instance in its mesh. -/
def Change.KeepsMesh (contents : Contents (Labelled Instance)) : Change → Prop
  | .updated res => ∀ old ∈ contents.get? res.resourceKey, res.mesh = old.mesh
  | .added _ | .deleted _ => True

/-- The replicas that count hear of every change: whoever counts at a change is the discovery
leader and has finished loading, and a manager is reset only when no event of an earlier change is
pending in its process. An update leaves the instance in its mesh. -/
def HearsAll (st : LawfulStore (Labelled Instance) S) (x : Cluster ι S) : Action ι → Prop
  | .elect _ | .send _ => True
  | .change c =>
    (∀ i, (x.replica i).phase ≠ .idle →
      x.discoveryLeader = some i ∧ (x.replica i).phase = .leading) ∧
    c.KeepsMesh (st.stored x.store)
  | .counter i => (x.replica i).phase = .elected → (x.replica i).pending = []

/-- Decided by the keys. -/
instance (contents : Contents (Labelled Instance)) (c : Change) :
    Decidable (c.KeepsMesh contents) :=
  match c with
  | .updated res =>
    inferInstanceAs (Decidable (∀ old ∈ contents.get? res.resourceKey, res.mesh = old.mesh))
  | .added _ | .deleted _ => .isTrue trivial

/-- A run of finitely many replicas can be checked. -/
instance [Fintype ι] [DecidableEq ι] (st : LawfulStore (Labelled Instance) S) (x : Cluster ι S)
    (a : Action ι) : Decidable (HearsAll st x a) :=
  match a with
  | .elect _ | .send _ => .isTrue trivial
  | .change c => inferInstanceAs (Decidable ((∀ i, (x.replica i).phase ≠ .idle →
      x.discoveryLeader = some i ∧ (x.replica i).phase = .leading) ∧
    c.KeepsMesh (st.stored x.store)))
  | .counter i =>
    inferInstanceAs (Decidable ((x.replica i).phase = .elected → (x.replica i).pending = []))

/-! ## Counting the right instances -/

/-- The manager is going to count these instances once the component has done what it has begun. -/
def Replica.Right (r : Replica) (contents : Contents (Labelled Instance)) : Prop :=
  match r.phase with
  | .idle => True
  | .elected => r.isLeader = true
  | .cleared => r.pending = [] ∧ CountsMeshes r.manager 0
  | .loading rest => r.pending = [] ∧
    CountsMeshes (r.manager.initializeResourceCount rest) (storedMeshes contents)
  | .leading => r.bound = true ∧ CountsMeshes (deliver r.pending r.manager) (storedMeshes contents)

/-- A replica that has the counter of the instances, and is right. -/
structure Replica.Sound (r : Replica) (contents : Contents (Labelled Instance)) : Prop where
  registered : instanceKind ∈ r.manager.simpleCounters
  right : r.Right contents

section Steps

variable {r : Replica} {contents : Contents (Labelled Instance)}

theorem Replica.start_sound (contents : Contents (Labelled Instance)) :
    Replica.start.Sound contents :=
  ⟨by decide, trivial⟩

theorem countsMeshes_reset {cm : CounterManager} (h : instanceKind ∈ cm.simpleCounters) :
    CountsMeshes { cm.reset with isLeader := some true } 0 := by
  obtain ⟨counter, hcounter⟩ := Option.isSome_iff_exists.mp (AList.lookup_isSome.mpr h)
  refine ⟨nofun, ∅, ?_, Tally.counts_empty⟩
  show (fillWith cm.simpleCounters ∅).lookup instanceKind = some ∅
  rw [lookup_fillWith, hcounter]
  rfl

/-- The counter component goes on. -/
theorem Replica.Sound.next (h : r.Sound contents)
    (hheard : r.phase = .elected → r.pending = []) : (r.next contents.items).Sound contents := by
  obtain ⟨phase, isLeader, bound, manager, pending⟩ := r
  obtain ⟨hregistered, hright⟩ := h
  cases phase with
  | idle => exact ⟨hregistered, rfl⟩
  | elected =>
    -- The flag that the manager is handed was set before.
    obtain rfl : isLeader = true := hright
    exact ⟨mem_fillWith.mpr hregistered, hheard rfl, countsMeshes_reset hregistered⟩
  | cleared =>
    obtain ⟨hpending, hcounts⟩ := hright
    exact ⟨hregistered, hpending, hcounts.initializeResourceCount contents⟩
  | loading rest =>
    obtain ⟨hpending, hcounts⟩ := hright
    cases rest with
    | nil =>
      -- Nothing is pending, so what was loaded is what the manager counts.
      obtain rfl : pending = [] := hpending
      exact ⟨hregistered, rfl, hcounts⟩
    | cons resource rest =>
      have hkept : instanceKind ∈ (manager.loadResource resource).simpleCounters := by
        rw [(simpleCounters_loadResource manager resource).1]
        exact mem_modify.mpr hregistered
      exact ⟨hkept, hpending, hcounts⟩
  | leading => exact ⟨mem_fillWith.mpr hregistered, trivial⟩

/-- Sending a pending event. -/
theorem Replica.Sound.send (h : r.Sound contents)
    {event : ResourceChangedEvent (Labelled Instance)}
    {rest : List (ResourceChangedEvent (Labelled Instance))}
    (hpending : r.pending = event :: rest) :
    Replica.Sound { r.send event with pending := rest } contents := by
  obtain ⟨phase, isLeader, bound, manager, pending⟩ := r
  obtain ⟨hregistered, hright⟩ := h
  obtain rfl : pending = event :: rest := hpending
  have hkept : instanceKind ∈ (manager.handleEvent instanceKind event).simpleCounters := by
    unfold CounterManager.handleEvent
    split_ifs
    · exact hregistered
    · exact mem_modify.mpr hregistered
  refine ⟨?_, ?_⟩
  · unfold Replica.send
    split_ifs
    · exact hkept
    · exact hregistered
  · cases phase with
    | idle =>
      cases bound with
      | false | true => trivial
    | elected =>
      cases bound with
      | false | true => exact hright
    | cleared | loading => exact nomatch hright.1
    | leading =>
      obtain ⟨hbound, hcounts⟩ := hright
      obtain rfl : bound = true := hbound
      exact ⟨rfl, hcounts⟩

theorem Replica.Sound.of_idle (h : r.Sound contents) (hidle : r.phase = .idle)
    (contents' : Contents (Labelled Instance)) : r.Sound contents' := by
  refine ⟨h.registered, ?_⟩
  unfold Replica.Right
  rw [hidle]
  trivial

/-- The replica that changes the store has one more event to send, which makes its count that of
the store again. -/
theorem Replica.Sound.changed (h : r.Sound contents) {contents' : Contents (Labelled Instance)}
    {event : ResourceChangedEvent (Labelled Instance)}
    (hcounting : r.phase ≠ .idle → r.phase = .leading)
    (hevent : ∀ cm, CountsMeshes cm (storedMeshes contents) →
      CountsMeshes (cm.handleEvent instanceKind event) (storedMeshes contents')) :
    Replica.Sound { r with pending := r.pending ++ [event] } contents' := by
  obtain ⟨phase, isLeader, bound, manager, pending⟩ := r
  obtain ⟨hregistered, hright⟩ := h
  by_cases hidle : phase = .idle
  · subst hidle
    exact ⟨hregistered, trivial⟩
  · obtain rfl : phase = .leading := hcounting hidle
    obtain ⟨hbound, hcounts⟩ := hright
    have hlast : deliver (pending ++ [event]) manager =
        (deliver pending manager).handleEvent instanceKind event := by
      unfold deliver
      rw [List.foldl_append]
      rfl
    refine ⟨hregistered, hbound, ?_⟩
    rw [hlast]
    exact hevent _ hcounts

end Steps

section Changes

variable {st : LawfulStore (Labelled Instance) S} {s s' : S}
  {event : ResourceChangedEvent (Labelled Instance)}

theorem eq_of_succeeds {result : Except Failure Unit × S}
    {contents : Contents (Labelled Instance)}
    (hspec : result.1 = .ok () ∧ st.Leaves s contents result.2) :
    ∃ s', result = (.ok (), s') ∧ st.Leaves s contents s' := by
  obtain ⟨result, s'⟩ := result
  obtain ⟨rfl, hleaves⟩ := hspec
  exact ⟨s', rfl, hleaves⟩

/-- A change leaves a state of the store, and its event makes the count that of the store again. -/
theorem Change.apply_counts (hrejects : st.Rejects) (hvalid : st.valid s) {c : Change}
    (hkind : c.res.kind = st.kind) (hkeeps : c.KeepsMesh (st.stored s))
    (happly : c.apply st s = some (s', event)) :
    st.valid s' ∧ ∀ cm, CountsMeshes cm (storedMeshes (st.stored s)) →
      CountsMeshes (cm.handleEvent instanceKind event) (storedMeshes (st.stored s')) := by
  cases c with
  | added res =>
    unfold Change.apply at happly
    dsimp only at happly
    cases hget : (st.stored s).get? res.resourceKey with
    | some old =>
      -- The database has a row under the key already.
      obtain ⟨e, hadd⟩ := hrejects s res old hvalid hkind hget
      rw [hadd] at happly
      exact nomatch happly
    | none =>
      obtain ⟨_, hadd, hleaves⟩ := eq_of_succeeds (st.add_spec s res hvalid hkind hget)
      rw [hadd] at happly
      cases happly
      rw [hleaves.stored]
      exact ⟨hleaves.valid, fun cm hcounts => hcounts.added hget⟩
  | updated res =>
    unfold Change.apply at happly
    dsimp only at happly
    cases hget : (st.stored s).get? res.resourceKey with
    | none =>
      rw [hget] at happly
      exact nomatch happly
    | some old =>
      obtain ⟨_, hupdate, hleaves⟩ := eq_of_succeeds (st.update_spec s res old hvalid hkind hget)
      rw [hget, hupdate] at happly
      cases happly
      rw [hleaves.stored]
      exact ⟨hleaves.valid, fun cm hcounts => hcounts.updated hget (hkeeps old hget)⟩
  | deleted res =>
    unfold Change.apply at happly
    dsimp only at happly
    cases hget : (st.stored s).get? res.resourceKey with
    | none =>
      rw [hget] at happly
      exact nomatch happly
    | some old =>
      obtain ⟨_, hdelete, hleaves⟩ := eq_of_succeeds
        ⟨st.delete_ok s res old hvalid hget, st.delete_spec s res hvalid⟩
      rw [hget, hdelete] at happly
      cases happly
      rw [hleaves.stored]
      exact ⟨hleaves.valid, fun cm hcounts => hcounts.deleted hget rfl⟩

end Changes

/-! ## Whole runs -/

/-- The invariant. -/
structure Invariant (st : LawfulStore (Labelled Instance) S) (x : Cluster ι S) : Prop where
  valid : st.valid x.store
  /-- Every replica is going to count what is stored. -/
  sound : ∀ i, (x.replica i).Sound (st.stored x.store)

theorem Started.invariant {st : LawfulStore (Labelled Instance) S} {x : Cluster ι S}
    (h : Started st x) : Invariant st x where
  valid := h.valid
  sound i := by
    rw [h.fresh i]
    exact Replica.start_sound _

section Invariance

variable [DecidableEq ι] {st : LawfulStore (Labelled Instance) S} {x x' : Cluster ι S}

theorem Invariant.set (h : Invariant st x) {i : ι} {r : Replica}
    (hr : r.Sound (st.stored x.store)) : Invariant st (x.set i r) where
  valid := h.valid
  sound j := by
    show (Function.update x.replica i r j).Sound _
    by_cases hj : j = i
    · subst hj
      rw [Function.update_self]
      exact hr
    · rw [Function.update_of_ne hj]
      exact h.sound j

/-- A change that every counting replica hears of. -/
theorem Invariant.change (h : Invariant st x) (hrejects : st.Rejects) {c : Change} {i : ι}
    (hleader : x.discoveryLeader = some i) (hhears : HearsAll st x (.change c))
    (hchange : x.change st i c = some x') : Invariant st x' := by
  unfold Cluster.change at hchange
  split_ifs at hchange with hkind
  split at hchange
  · exact nomatch hchange
  next s' event happly =>
  cases hchange
  obtain ⟨hcounting, hkeeps⟩ := hhears
  obtain ⟨hvalid, hcounts⟩ := Change.apply_counts hrejects h.valid hkind hkeeps happly
  refine ⟨hvalid, fun j => ?_⟩
  show (Function.update x.replica i _ j).Sound (st.stored s')
  by_cases hj : j = i
  · subst hj
    rw [Function.update_self]
    exact (h.sound j).changed (fun hphase => (hcounting j hphase).2) hcounts
  · rw [Function.update_of_ne hj]
    -- This replica did not make the change, so it is not one that counts.
    have hidle : (x.replica j).phase = .idle := by
      by_contra hphase
      have hj' := (hcounting j hphase).1
      rw [hleader] at hj'
      exact hj (Option.some.inj hj').symm
    exact (h.sound j).of_idle hidle _

/-- A step that every counting replica hears of keeps the invariant. -/
theorem Invariant.step (h : Invariant st x) (hrejects : st.Rejects) {a : Action ι}
    (hstep : Guarded (HearsAll st) (ClusterStep st) x a x') : Invariant st x' := by
  obtain ⟨hhears, hnext⟩ := hstep
  unfold ClusterStep Cluster.next at hnext
  cases a with
  | elect discoveryLeader =>
    cases hnext
    exact ⟨h.valid, h.sound⟩
  | change c =>
    cases hleader : x.discoveryLeader with
    | none =>
      rw [hleader] at hnext
      exact nomatch hnext
    | some i =>
      rw [hleader] at hnext
      exact h.change hrejects hleader hhears hnext
  | send i =>
    dsimp only at hnext
    cases hpending : (x.replica i).pending with
    | nil =>
      rw [hpending] at hnext
      exact nomatch hnext
    | cons event rest =>
      rw [hpending] at hnext
      cases hnext
      exact h.set ((h.sound i).send hpending)
  | counter i =>
    cases hnext
    exact h.set ((h.sound i).next hhears)

end Invariance

/-- In every run in which the counting replicas hear of every change, the counter leader counts what
is stored whenever no event is pending. -/
theorem counter_leader_counts [DecidableEq ι] {st : LawfulStore (Labelled Instance) S}
    (hrejects : st.Rejects) {x₀ x : Cluster ι S} {actions : List (Action ι)}
    (hstart : Started st x₀)
    (hrun : Run (Guarded (HearsAll st) (ClusterStep st)) x₀ actions x) : CountsShared st x := by
  have hinv : Invariant st x := by
    refine hrun.invariant (Invariant st) hstart.invariant ?_
    intro s a s' h hstep
    exact h.step hrejects hstep
  intro hquiet i hleading
  have hright := (hinv.sound i).right
  unfold Replica.Right at hright
  rw [hleading, hquiet i] at hright
  have hcounts : CountsMeshes (x.replica i).manager (storedMeshes (st.stored x.store)) := hright.2
  rw [hcounts.count_eq, card_storedMeshes]

/-- The instance store of a database. -/
def sampleStore : LawfulStore (Labelled Instance) (Gorm.DB (Labelled Instance)) :=
  gormStore ⟨instanceKind, instanceIndexers⟩ .insertion

/-- Two new processes over an empty database. -/
def sampleCluster : Cluster Bool (Gorm.DB (Labelled Instance)) :=
  ⟨⟨.empty, []⟩, none, fun _ => .start⟩

/-- An instance without a spec. -/
def sampleInstance : InstanceResource where
  kind := instanceKind
  mesh := "nacos"
  name := "shop10.0.0.1:20880"
  spec := ⟨∅, none⟩

/-- The first replica leads both components, and adds an instance after it has loaded. -/
def countedAtHome : List (Action Bool) :=
  [.counter true, .counter true, .counter true, .counter true, .elect (some true),
    .change (.added sampleInstance), .send true]

/-- The instance is counted where it was added. -/
theorem counter_leader_counts_at_home :
    ∃ x, Run (Guarded (HearsAll sampleStore) (ClusterStep sampleStore)) sampleCluster
        countedAtHome x ∧ CountsShared sampleStore x ∧
      (x.replica true).manager.count instanceKind = 1 := by
  obtain ⟨x, hx, hcount⟩ : ∃ x, countedAtHome.foldlM
        (fun x a => if HearsAll sampleStore x a then x.next sampleStore a else none)
        sampleCluster = some x ∧ (x.replica true).manager.count instanceKind = 1 :=
    ⟨_, rfl, by decide +kernel⟩
  have hrun := Run.of_foldlM (Guarded.of_next fun _ _ _ h => h) hx
  have hrejects : sampleStore.Rejects := gormStore_rejects _ _
  exact ⟨x, hrun, counter_leader_counts hrejects ⟨trivial, fun _ => rfl⟩ hrun, hcount⟩

/-- The first replica leads the discovery only, and the second one the counting. -/
def countedElsewhere : List (Action Bool) :=
  [.counter false, .counter false, .counter false, .counter false, .elect (some true),
    .change (.added sampleInstance), .send true]

/-- A counter leader that is not the discovery leader never hears of an instance that was added. -/
theorem added_elsewhere_uncounted :
    ∃ x, Run (ClusterStep sampleStore) sampleCluster countedElsewhere x ∧
      (∀ i, (x.replica i).pending = []) ∧ (x.replica false).phase = .leading ∧
      (x.replica false).manager.count instanceKind = 0 ∧
      (sampleStore.stored x.store).items.length = 1 := by
  obtain ⟨x, hx, hfacts⟩ : ∃ x, countedElsewhere.foldlM (Cluster.next sampleStore) sampleCluster =
        some x ∧ (∀ i, (x.replica i).pending = []) ∧ (x.replica false).phase = .leading ∧
      (x.replica false).manager.count instanceKind = 0 ∧
      (sampleStore.stored x.store).items.length = 1 :=
    ⟨_, rfl, by decide +kernel, by decide +kernel, by decide +kernel, by decide +kernel⟩
  exact ⟨x, Run.of_foldlM (fun _ _ _ h => h) hx, hfacts⟩

end DubboAdmin.Console.Replicas
