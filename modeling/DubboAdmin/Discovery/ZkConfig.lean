import DubboAdmin.Discovery.Converters
import DubboAdmin.Discovery.LifecycleEvents
import DubboAdmin.Rules.RouterRuleCodec

/-!
# Rules in ZooKeeper

`ZKConfigEventSubscriber` of `pkg/core/discovery/subscriber/zk_config.go` turns the config nodes of
ZooKeeper into rules: the last part of a node's name says which kind of rule the node holds.

The stores of condition routes, tag routes and dynamic configurations hold exactly the rules of the
nodes that exist (`handled_stores_exact`). The subscriber does not know affinity routes and script
routes, and it sends every event twice, so the stores are exact and the events can be replayed only
as long as nothing was stored (`zkConfig_followed_iff`).
-/

namespace DubboAdmin.Discovery

open Controller Json Rules Strings

variable {Text : Type}

/-! ## Config nodes -/

/-- The name of a node: a part of a path. -/
abbrev NodeName := { name : String // '/' ∉ name.toList }

/-- The resource of a config node. -/
def configResource (mesh : String) (name : NodeName) (data : Text) : ZKConfigResource Text :=
  ⟨zkConfigKind, mesh, name, some ⟨name, data⟩⟩

/-! ## Kinds of rules -/

/-- The kinds of rules, by the suffixes of `RuleSuffixSet`. -/
inductive RuleKind where
  /-- `ConfiguratorsSuffix`. -/
  | configurators
  /-- `ConditionRuleSuffix`. -/
  | conditionRouter
  /-- `TagRuleSuffix`. -/
  | tagRouter
  /-- `AffinityRuleSuffix`. -/
  | affinityRouter
  /-- `ScriptRuleSuffix`. -/
  | scriptRouter
deriving DecidableEq

namespace RuleKind

/-- The suffix. -/
def suffix : RuleKind → String
  | configurators => "configurators"
  | conditionRouter => "condition-router"
  | tagRouter => "tag-router"
  | affinityRouter => "affinity-router"
  | scriptRouter => "script-router"

/-- The message of the kind. -/
def Spec : RuleKind → Type
  | configurators => DynamicConfig
  | conditionRouter => ConditionRoute
  | tagRouter => TagRoute
  | affinityRouter => AffinityRoute
  | scriptRouter => ScriptRoute

/-- The kind of the resources. -/
def resourceKind : RuleKind → String
  | configurators => dynamicConfigKind
  | conditionRouter => conditionRouteKind
  | tagRouter => tagRouteKind
  | affinityRouter => affinityRouteKind
  | scriptRouter => scriptRouteKind

/-- The kinds that the subscriber's `switch` has a case for. -/
def handled : RuleKind → Bool
  | configurators | conditionRouter | tagRouter => true
  | affinityRouter | scriptRouter => false

/-- `ToRuleResourceFunc` of each kind: the rule of a text, or `nil`. -/
def toResource (y : Yaml Text) : (k : RuleKind) → String → String → Text →
    Option (RuleResource k.Spec)
  | configurators => fun mesh name data => some (Rules.toDynamicConfigResource y mesh name data)
  | conditionRouter => fun mesh name data => some (Rules.toConditionRouteResource y mesh name data)
  | tagRouter => fun mesh name data => some (Rules.toTagRouteResource y mesh name data)
  | affinityRouter => fun mesh name data => (affinityCodec.decodeRule y mesh name data).toOption
  | scriptRouter => fun mesh name data => (scriptCodec.decodeRule y mesh name data).toOption

/-- `extractRuleEventContext`: the key of the message, and a category. -/
def eventContext : (k : RuleKind) → (k.Spec → String) × String
  | configurators => (DynamicConfig.key, "dynamic-config")
  | conditionRouter => (ConditionRoute.key, "condition-route")
  | tagRouter => (TagRoute.key, "tag-route")
  | affinityRouter | scriptRouter => (fun _ => "", "")

end RuleKind

/-- `RuleSuffixSet`, and the kind that a suffix is of. -/
def ruleKindOfSuffix (suffix : String) : Option RuleKind :=
  [.configurators, .conditionRouter, .tagRouter, .affinityRouter, .scriptRouter].find? fun k =>
    k.suffix = suffix

/-- The kind that the name of a node says. -/
def ruleKindOf (nodeName : String) : Option RuleKind :=
  ruleKindOfSuffix ((split '.' nodeName).getLastD "")

/-! ## The subscriber -/

/-- An event of a rule, with the registry in its context, if there is one. -/
structure RuleEvent (σ : Type) where
  change : ResourceChangedEvent (RuleObject σ)
  sourceRegistry : Option String

def sourceRegistryZookeeper : String := "zookeeper"

/-- The store of a kind of rules, the events that were sent for it, and what was recorded for the
platform. -/
structure RuleWorld (σ S : Type) where
  store : S
  /-- The events, in the order in which they were sent. -/
  events : List (RuleEvent σ)
  /-- The inputs of `RecordRegistryEvent`, in order. -/
  recorded : List RegistryEventInput

namespace RuleWorld

variable {σ S : Type}

def send (w : RuleWorld σ S) (change : ResourceChangedEvent (RuleObject σ))
    (sourceRegistry : Option String) : RuleWorld σ S :=
  { w with events := w.events ++ [⟨change, sourceRegistry⟩] }

/-- `recordConfigPlatformEvent`, where `context` gives the service name and the category. -/
def recordConfigPlatformEvent (w : RuleWorld σ S) (context : (σ → String) × String)
    (res : RuleResource σ) (action : String) : RuleWorld σ S :=
  let serviceName := (res.spec.spec.map context.1).getD ""
  if serviceName = "" then w
  else { w with recorded := w.recorded ++
    [{ mesh := res.mesh, sourceType := "zookeeper", category := context.2, action := action
       message := "Zookeeper " ++ context.2 ++ " " ++ action ++ ": " ++ serviceName
       serviceName := serviceName }] }

/-- The events without their context. -/
def changes (w : RuleWorld σ S) : List (ResourceChangedEvent (RuleObject σ)) :=
  w.events.map RuleEvent.change

end RuleWorld

section Subscriber

variable {σ S : Type}

def processConfigUpsert (st : ResourceStore (RuleObject σ) S) (context : (σ → String) × String)
    (w : RuleWorld σ S) (ruleRes : Option (RuleResource σ)) :
    Except Failure Unit × RuleWorld σ S :=
  match ruleRes with
  | none => (.error (.err "[ZKError], cannot unmarshal rule"), w)
  | some newRuleRes => match st.getByKey w.store newRuleRes.resourceKey with
    | .error e => (.error e, w)
    | .ok none => match st.add w.store newRuleRes with
      | (.error e, s) => (.error e, { w with store := s })
      | (.ok (), s) =>
        let w := { w with store := s }.recordConfigPlatformEvent context newRuleRes "added"
        (.ok (), (w.send ⟨.added, none, some newRuleRes⟩ none).send
          ⟨.added, none, some newRuleRes⟩ (some sourceRegistryZookeeper))
    | .ok (some old) => match st.update w.store newRuleRes with
      | (.error e, s) => (.error e, { w with store := s })
      | (.ok (), s) =>
        let w := { w with store := s }.send ⟨.updated, some old, some newRuleRes⟩
          (some sourceRegistryZookeeper)
        (.ok (), (w.recordConfigPlatformEvent context newRuleRes "updated").send
          ⟨.updated, some old, some newRuleRes⟩ none)

def processConfigDelete (st : ResourceStore (RuleObject σ) S) (context : (σ → String) × String)
    (w : RuleWorld σ S) (mesh name : String) : Except Failure Unit × RuleWorld σ S :=
  match st.getByKey w.store (buildResourceKey mesh name) with
  | .error e => (.error e, w)
  | .ok none => (.ok (), w)
  | .ok (some old) => match st.delete w.store old with
    | (.error e, s) => (.error e, { w with store := s })
    | (.ok (), s) =>
      let w := { w with store := s }.recordConfigPlatformEvent context old "deleted"
      (.ok (), (w.send ⟨.deleted, some old, none⟩ none).send ⟨.deleted, some old, none⟩
        (some sourceRegistryZookeeper))

end Subscriber

/-- `bizerror.New` with the code `UnknownError`, for a kind that the `switch` has no case for. The
raw content, with which the text ends for an upsert, is left out. -/
def unknownRuleType (mesh what nodeName : String) : Failure :=
  .err ("[UnknownError], unknown rule type in mesh " ++ mesh ++ ", skipped processing, " ++ what ++
    ": " ++ nodeName)

section Run

variable {S : RuleKind → Type}

/-- The stores of all kinds of rules, with what was sent and recorded for them. -/
abbrev RuleWorlds (S : RuleKind → Type) := (k : RuleKind) → RuleWorld k.Spec (S k)

/-- The stores that the router has for the kinds of rules. -/
abbrev RuleStores (S : RuleKind → Type) := (k : RuleKind) → LawfulStore (RuleObject k.Spec) (S k)

/-- What `processUpsert` and `processDelete` have in common: the kind that the name of the node says
is processed, where the `switch` has a case for it. -/
def dispatchRule (w : RuleWorlds S) (nodeName : String) (unknown : Failure)
    (process : (k : RuleKind) → Except Failure Unit × RuleWorld k.Spec (S k)) :
    Except Failure Unit × RuleWorlds S :=
  match ruleKindOf nodeName with
  | none => (.ok (), w)
  | some k =>
    if k.handled then ((process k).1, Function.update w k (process k).2)
    else (.error unknown, w)

def processUpsert (y : Yaml Text) (st : RuleStores S) (w : RuleWorlds S) (mesh name : String)
    (spec : ZKConfig Text) : Except Failure Unit × RuleWorlds S :=
  dispatchRule w spec.nodeName (unknownRuleType mesh "path" spec.nodeName) fun k =>
    processConfigUpsert (st k).toResourceStore k.eventContext (w k)
      (k.toResource y mesh name spec.nodeData)

def processDelete (st : RuleStores S) (w : RuleWorlds S) (mesh name : String)
    (spec : ZKConfig Text) : Except Failure Unit × RuleWorlds S :=
  dispatchRule w spec.nodeName (unknownRuleType mesh "node" spec.nodeName) fun k =>
    processConfigDelete (st k).toResourceStore k.eventContext (w k) mesh name

/-- `ProcessEvent`. -/
def processZKConfig (y : Yaml Text) (st : RuleStores S) (w : RuleWorlds S)
    (event : ResourceChangedEvent (Option (ZKConfig Text))) :
    Except Failure Unit × RuleWorlds S :=
  match event.typ with
  | .deleted => match event.oldObj with
    | none => (.error (eventError
        "process zk config delete event, but old obj is nil, skipped processing"), w)
    | some oldObj => match oldObj.spec with
      | none => (.error nilDereference, w)
      | some spec => processDelete st w oldObj.mesh oldObj.name spec
  | _ => match event.newObj with
    | some ⟨_, mesh, name, some spec⟩ => processUpsert y st w mesh name spec
    | _ => (.error (eventError
        "process zk config upsert event, but new obj is nil, skipped processing"), w)

/-! ## Runs -/

/-- What happens to a config node. -/
inductive NodeEvent (Text : Type) where
  /-- The node is there, with these data. -/
  | upsert (typ : DeltaType) (htyp : typ ≠ .deleted) (mesh : String) (name : NodeName) (data : Text)
  | delete (mesh : String) (name : NodeName) (data : Text)

namespace NodeEvent

/-- The event that the subscriber gets. -/
def event : NodeEvent Text → ResourceChangedEvent (Option (ZKConfig Text))
  | upsert typ _ mesh name data => ⟨typ, none, some (configResource mesh name data)⟩
  | delete mesh name data => ⟨.deleted, some (configResource mesh name data), none⟩

/-- The mesh. -/
def mesh : NodeEvent Text → String
  | upsert _ _ mesh _ _ => mesh
  | delete mesh _ _ => mesh

/-- The node. -/
def name : NodeEvent Text → NodeName
  | upsert _ _ _ name _ => name
  | delete _ name _ => name

/-- What the node holds afterwards, if it is there. -/
def content : NodeEvent Text → Option Text
  | upsert _ _ _ _ data => some data
  | delete _ _ _ => none

/-- The kind of rule that the node holds. -/
def kind (e : NodeEvent Text) : Option RuleKind := ruleKindOf e.name

end NodeEvent

/-- What the node holds after the events, which is what the last event for it has left. -/
def contentOf (events : List (NodeEvent Text)) (mesh : String) (name : NodeName) : Option Text :=
  events.foldl (fun held e => if e.mesh = mesh ∧ e.name = name then e.content else held) none

/-- The events, processed one at a time. -/
def processAll (y : Yaml Text) (st : RuleStores S) (w : RuleWorlds S)
    (events : List (NodeEvent Text)) : RuleWorlds S :=
  events.foldl (fun w e => (processZKConfig y st w e.event).2) w

/-- The store of a kind holds the decoded rules of the nodes that exist, and nothing else. -/
def StoreExact (y : Yaml Text) (st : RuleStores S) (events : List (NodeEvent Text))
    (w : RuleWorlds S) (k : RuleKind) : Prop :=
  ∀ r, r ∈ ((st k).stored (w k).store).items ↔ ∃ (mesh : String) (name : NodeName) (data : Text),
    ruleKindOf name = some k ∧ contentOf events mesh name = some data ∧
      k.toResource y mesh name data = some r

/-- One event of a rule, followed on a map: `Added` must be for an absent key, `Updated` and
`Deleted` for a present one. -/
def followEvent {σ : Type} (m : Contents σ) (e : ResourceChangedEvent σ) : Option (Contents σ) :=
  match e.typ, e.oldObj, e.newObj with
  | .added, _, some new => if (m.get? new.resourceKey).isNone then some (m.put new) else none
  | .updated, _, some new => if (m.get? new.resourceKey).isSome then some (m.put new) else none
  | .deleted, some old, _ =>
    if (m.get? old.resourceKey).isSome then some (m.erase old.resourceKey) else none
  | _, _, _ => none

/-- The events in order, on a map that starts empty. -/
def follow {σ : Type} (events : List (ResourceChangedEvent σ)) : Option (Contents σ) :=
  events.foldlM followEvent Keyed.empty

/-- The events of a kind can be followed and give what the store holds, and there is not more than
one for each event of a node of the kind. -/
def Followed (st : RuleStores S) (events : List (NodeEvent Text)) (w : RuleWorlds S)
    (k : RuleKind) : Prop :=
  follow (w k).changes = some ((st k).stored (w k).store) ∧
    (w k).changes.length ≤ (events.filter fun e => e.kind = some k).length

/-- The data of a node decode and validate for the kind of the node. -/
def NodeEvent.Legal (y : Yaml Text) (e : NodeEvent Text) : Prop :=
  ∀ k data, e.kind = some k → e.content = some data →
    match k with
    | .configurators => (y.unmarshal dynamicConfigType data dynamicConfigType.zero).ok = true
    | .conditionRouter => (y.unmarshal conditionRouteType data conditionRouteType.zero).ok = true
    | .tagRouter => (y.unmarshal tagRouteType data tagRouteType.zero).ok = true
    | .affinityRouter => ∃ r, affinityCodec.decodeRule y e.mesh e.name data = .ok r
    | .scriptRouter => ∃ r, scriptCodec.decodeRule y e.mesh e.name data = .ok r

/-- The stores of all kinds are empty, and nothing was sent. -/
def Fresh (st : RuleStores S) (w : RuleWorlds S) : Prop :=
  ∀ k, (st k).valid (w k).store ∧ (st k).stored (w k).store = Keyed.empty ∧ (w k).events = [] ∧
    (st k).kind = k.resourceKind

/-! ## What one event does -/

section Step

variable {σ S' : Type} {st : LawfulStore (RuleObject σ) S'} {context : (σ → String) × String}
  {w : RuleWorld σ S'}

@[simp]
theorem RuleWorld.changes_send (w : RuleWorld σ S') (change : ResourceChangedEvent (RuleObject σ))
    (source : Option String) : (w.send change source).changes = w.changes ++ [change] := by
  simp [send, changes]

@[simp]
theorem RuleWorld.changes_withStore (w : RuleWorld σ S') (s : S') :
    { w with store := s }.changes = w.changes := rfl

@[simp]
theorem RuleWorld.store_send (w : RuleWorld σ S') (change : ResourceChangedEvent (RuleObject σ))
    (source : Option String) : (w.send change source).store = w.store := rfl

@[simp]
theorem RuleWorld.changes_record (w : RuleWorld σ S') (res : RuleResource σ) (action : String) :
    (w.recordConfigPlatformEvent context res action).changes = w.changes := by
  unfold recordConfigPlatformEvent
  dsimp only
  split_ifs <;> rfl

@[simp]
theorem RuleWorld.store_record (w : RuleWorld σ S') (res : RuleResource σ) (action : String) :
    (w.recordConfigPlatformEvent context res action).store = w.store := by
  unfold recordConfigPlatformEvent
  dsimp only
  split_ifs <;> rfl

/-- The event of an upsert. -/
def upsertChange (old : Option (RuleResource σ)) (new : RuleResource σ) :
    ResourceChangedEvent (RuleObject σ) :=
  match old with
  | none => ⟨.added, none, some new⟩
  | some old => ⟨.updated, some old, some new⟩

/-- An upsert stores the rule, and sends its event twice. -/
theorem processConfigUpsert_spec (hvalid : st.valid w.store) {r : RuleResource σ}
    (hkind : r.kind = st.kind) {w' : RuleWorld σ S'}
    (h : (processConfigUpsert st.toResourceStore context w (some r)).2 = w') :
    st.Leaves w.store ((st.stored w.store).put r) w'.store ∧
      w'.changes = w.changes ++ [upsertChange ((st.stored w.store).get? r.resourceKey) r,
        upsertChange ((st.stored w.store).get? r.resourceKey) r] := by
  subst h
  unfold processConfigUpsert
  dsimp only
  rw [st.getByKey_eq]
  cases hget : (st.stored w.store).get? r.resourceKey with
  | none =>
    obtain ⟨hok, hleaves⟩ := st.add_spec w.store r hvalid hkind hget
    obtain ⟨⟨res, s⟩, hadd⟩ : ∃ p, st.add w.store r = p := ⟨_, rfl⟩
    rw [hadd] at hok hleaves
    obtain rfl : res = .ok () := hok
    rw [hadd]
    refine ⟨?_, ?_⟩
    · simpa using hleaves
    · simp [upsertChange]
  | some old =>
    obtain ⟨hok, hleaves⟩ := st.update_spec w.store r old hvalid hkind hget
    obtain ⟨⟨res, s⟩, hupdate⟩ : ∃ p, st.update w.store r = p := ⟨_, rfl⟩
    rw [hupdate] at hok hleaves
    obtain rfl : res = .ok () := hok
    rw [hupdate]
    refine ⟨?_, ?_⟩
    · simpa using hleaves
    · simp [upsertChange]

theorem processConfigDelete_absent {mesh name : String}
    (hget : (st.stored w.store).get? (buildResourceKey mesh name) = none) :
    (processConfigDelete st.toResourceStore context w mesh name).2 = w := by
  unfold processConfigDelete
  rw [st.getByKey_eq, hget]

/-- A deletion removes the rule, and sends its event twice. -/
theorem processConfigDelete_present (hvalid : st.valid w.store) {mesh name : String}
    {old : RuleResource σ} (hget : (st.stored w.store).get? (buildResourceKey mesh name) = some old)
    {w' : RuleWorld σ S'}
    (h : (processConfigDelete st.toResourceStore context w mesh name).2 = w') :
    st.Leaves w.store ((st.stored w.store).erase (buildResourceKey mesh name)) w'.store ∧
      w'.changes = w.changes ++ [⟨.deleted, some old, none⟩, ⟨.deleted, some old, none⟩] := by
  subst h
  have hkey : old.resourceKey = buildResourceKey mesh name := (Keyed.get?_eq_some_iff.mp hget).2
  have hok := st.delete_ok w.store old old hvalid (by rw [hkey, hget])
  have hleaves := st.delete_spec w.store old hvalid
  unfold processConfigDelete
  rw [st.getByKey_eq, hget]
  obtain ⟨⟨res, s⟩, hdelete⟩ : ∃ p, st.delete w.store old = p := ⟨_, rfl⟩
  rw [hdelete] at hok hleaves
  obtain rfl : res = .ok () := hok
  rw [hkey] at hleaves
  dsimp only
  rw [hdelete]
  refine ⟨?_, ?_⟩
  · simpa using hleaves
  · simp

end Step

/-! ## What runs preserve -/

theorem contentOf_append_singleton (events : List (NodeEvent Text)) (e : NodeEvent Text)
    (mesh : String) (name : NodeName) :
    contentOf (events ++ [e]) mesh name =
      if e.mesh = mesh ∧ e.name = name then e.content else contentOf events mesh name := by
  unfold contentOf
  rw [List.foldl_append]
  rfl

theorem exists_upsert_of_contentOf {events : List (NodeEvent Text)} {mesh : String}
    {name : NodeName} {data : Text} (h : contentOf events mesh name = some data) :
    ∃ e ∈ events, e.mesh = mesh ∧ e.name = name ∧ e.content = some data := by
  induction events using List.reverseRecOn with
  | nil => cases h
  | append_singleton events e ih =>
    rw [contentOf_append_singleton] at h
    split_ifs at h with hnode
    · exact ⟨e, List.mem_append_right _ List.mem_cons_self, hnode.1, hnode.2, h⟩
    · obtain ⟨e', he', hrest⟩ := ih h
      exact ⟨e', List.mem_append_left _ he', hrest⟩

theorem nodeKey_inj {mesh mesh' : String} {name name' : NodeName}
    (h : buildResourceKey mesh name = buildResourceKey mesh' name') :
    mesh = mesh' ∧ name = name' := by
  have hlist := congrArg String.toList h
  simp only [buildResourceKey, String.toList_append] at hlist
  have hjoin : mesh.toList ++ '/' :: name.val.toList = mesh'.toList ++ '/' :: name'.val.toList := by
    simpa using hlist
  obtain ⟨hmesh, hname⟩ := join_inj_right name.property name'.property hjoin
  exact ⟨String.toList_injective hmesh, Subtype.ext (String.toList_injective hname)⟩

theorem RuleKind.toResource_of_handled {k : RuleKind} (hk : k.handled = true) (y : Yaml Text)
    (mesh name : String) (data : Text) : ∃ r, k.toResource y mesh name data = some r ∧
      r.kind = k.resourceKind ∧ r.resourceKey = buildResourceKey mesh name := by
  cases k with
  | configurators | conditionRouter | tagRouter => exact ⟨_, rfl, rfl, rfl⟩
  | affinityRouter | scriptRouter => cases hk

theorem RuleKind.resourceKey_of_toResource {k : RuleKind} (hk : k.handled = true) {y : Yaml Text}
    {mesh name : String} {data : Text} {r : RuleResource k.Spec}
    (h : k.toResource y mesh name data = some r) : r.resourceKey = buildResourceKey mesh name := by
  obtain ⟨r', hr', -, hkey⟩ := toResource_of_handled hk y mesh name data
  obtain rfl := Option.some.inj (h.symm.trans hr')
  exact hkey

/-- What a run has done to the store of a kind that the subscriber handles: the store is exact, and
the first event that was sent, if there was an upsert, was sent twice. -/
structure Handles (y : Yaml Text) (st : RuleStores S) (events : List (NodeEvent Text))
    (w : RuleWorlds S) (k : RuleKind) : Prop where
  valid : (st k).valid (w k).store
  exact : StoreExact y st events w k
  quiet : (∀ e ∈ events, e.kind = some k → e.content = none) → (w k).changes = []
  twice : (∃ e ∈ events, e.kind = some k ∧ e.content ≠ none) →
    ∃ r rest, (w k).changes = ⟨.added, none, some r⟩ :: ⟨.added, none, some r⟩ :: rest

section Dispatch

variable {w : RuleWorlds S} {nodeName : String} {unknown : Failure}
  {process : (k : RuleKind) → Except Failure Unit × RuleWorld k.Spec (S k)} {k : RuleKind}

theorem dispatchRule_other (h : ruleKindOf nodeName ≠ some k) :
    (dispatchRule w nodeName unknown process).2 k = w k := by
  unfold dispatchRule
  cases hkind : ruleKindOf nodeName with
  | none => rfl
  | some k' =>
    have hne : k ≠ k' := fun hsame => h (hsame ▸ hkind)
    dsimp only
    split_ifs
    · exact Function.update_of_ne hne _ _
    · rfl

theorem dispatchRule_unhandled (hk : k.handled = false) :
    (dispatchRule w nodeName unknown process).2 k = w k := by
  by_cases h : ruleKindOf nodeName = some k
  · unfold dispatchRule
    rw [h]
    dsimp only
    rw [hk, if_neg Bool.false_ne_true]
  · exact dispatchRule_other h

theorem dispatchRule_self (h : ruleKindOf nodeName = some k) (hk : k.handled = true) :
    (dispatchRule w nodeName unknown process).2 k = (process k).2 := by
  unfold dispatchRule
  rw [h]
  dsimp only
  rw [if_pos hk]
  exact Function.update_self _ _ _

end Dispatch

/-- What an event does to the world of a kind that it is dispatched to. -/
def NodeEvent.process (y : Yaml Text) (st : RuleStores S) (w : RuleWorlds S) (k : RuleKind) :
    NodeEvent Text → Except Failure Unit × RuleWorld k.Spec (S k)
  | .upsert _ _ mesh name data => processConfigUpsert (st k).toResourceStore k.eventContext (w k)
      (k.toResource y mesh name data)
  | .delete mesh name _ =>
      processConfigDelete (st k).toResourceStore k.eventContext (w k) mesh name

theorem processZKConfig_event (y : Yaml Text) (st : RuleStores S) (w : RuleWorlds S)
    (e : NodeEvent Text) : ∃ unknown, processZKConfig y st w e.event =
      dispatchRule w e.name unknown fun k => e.process y st w k := by
  cases e with
  | upsert typ htyp mesh name data =>
    cases typ with
    | deleted => exact absurd rfl htyp
    | _ => exact ⟨_, rfl⟩
  | delete mesh name data => exact ⟨_, rfl⟩

section Handled

variable {y : Yaml Text} {st : RuleStores S} {events : List (NodeEvent Text)} {w : RuleWorlds S}
  {k : RuleKind}

theorem StoreExact.stored_empty (h : StoreExact y st events w k)
    (hnone : ∀ e ∈ events, e.kind = some k → e.content = none) :
    (st k).stored (w k).store = Keyed.empty := by
  refine Keyed.eq_empty_of_forall_not_mem fun r hr => ?_
  obtain ⟨mesh, name, data, hkind, hcontent, -⟩ := (h r).mp hr
  obtain ⟨e, he, -, rfl, hdata⟩ := exists_upsert_of_contentOf hcontent
  have hgone := hnone e he hkind
  rw [hdata] at hgone
  cases hgone

variable {data : Text} {w' : RuleWorlds S}

/-- An upsert leaves the store exact. -/
theorem StoreExact.upsert (hk : k.handled = true) (h : StoreExact y st events w k) {typ : DeltaType}
    {htyp : typ ≠ .deleted} {mesh : String} {name : NodeName} (hkind : ruleKindOf name = some k)
    {r : RuleResource k.Spec} (hr : k.toResource y mesh name data = some r)
    (hstored : (st k).stored (w' k).store = ((st k).stored (w k).store).put r) :
    StoreExact y st (events ++ [.upsert typ htyp mesh name data]) w' k := by
  have hkey := RuleKind.resourceKey_of_toResource hk hr
  intro x
  rw [hstored, Keyed.mem_put]
  constructor
  · rintro (rfl | ⟨hx, hne⟩)
    · refine ⟨mesh, name, data, hkind, ?_, hr⟩
      rw [contentOf_append_singleton, if_pos ⟨rfl, rfl⟩]
      rfl
    · obtain ⟨mesh', name', data', hkind', hcontent, hx'⟩ := (h x).mp hx
      refine ⟨mesh', name', data', hkind', ?_, hx'⟩
      rw [contentOf_append_singleton, if_neg ?_]
      · exact hcontent
      · rintro ⟨rfl, rfl⟩
        exact hne (by rw [RuleKind.resourceKey_of_toResource hk hx', hkey]; rfl)
  · rintro ⟨mesh', name', data', hkind', hcontent, hx⟩
    rw [contentOf_append_singleton] at hcontent
    split_ifs at hcontent with hnode
    · obtain ⟨rfl, rfl⟩ := hnode
      obtain rfl : data = data' := Option.some.inj hcontent
      exact .inl (Option.some.inj (hx.symm.trans hr))
    · refine .inr ⟨(h x).mpr ⟨mesh', name', data', hkind', hcontent, hx⟩, fun hsame => hnode ?_⟩
      rw [RuleKind.resourceKey_of_toResource hk hx, hkey] at hsame
      obtain ⟨rfl, rfl⟩ := nodeKey_inj hsame
      exact ⟨rfl, rfl⟩

/-- A deletion leaves the store exact. -/
theorem StoreExact.delete (hk : k.handled = true) (h : StoreExact y st events w k) {mesh : String}
    {name : NodeName} (hstored : (st k).stored (w' k).store =
      ((st k).stored (w k).store).erase (buildResourceKey mesh name)) :
    StoreExact y st (events ++ [.delete mesh name data]) w' k := by
  intro x
  rw [hstored, Keyed.mem_erase, h x]
  constructor
  · rintro ⟨⟨mesh', name', data', hkind', hcontent, hx⟩, hne⟩
    refine ⟨mesh', name', data', hkind', ?_, hx⟩
    rw [contentOf_append_singleton, if_neg ?_]
    · exact hcontent
    · rintro ⟨rfl, rfl⟩
      exact hne (RuleKind.resourceKey_of_toResource hk hx)
  · rintro ⟨mesh', name', data', hkind', hcontent, hx⟩
    rw [contentOf_append_singleton] at hcontent
    split_ifs at hcontent with hnode
    · cases hcontent
    · refine ⟨⟨mesh', name', data', hkind', hcontent, hx⟩, fun hsame => hnode ?_⟩
      rw [RuleKind.resourceKey_of_toResource hk hx] at hsame
      obtain ⟨rfl, rfl⟩ := nodeKey_inj hsame
      exact ⟨rfl, rfl⟩

theorem StoreExact.other (h : StoreExact y st events w k) {e : NodeEvent Text}
    (he : e.kind ≠ some k) (hsame : w' k = w k) :
    StoreExact y st (events ++ [e]) w' k := by
  have hcontent : ∀ mesh (name : NodeName), ruleKindOf name = some k →
      contentOf (events ++ [e]) mesh name = contentOf events mesh name := by
    intro mesh name hname
    rw [contentOf_append_singleton, if_neg]
    rintro ⟨-, rfl⟩
    exact he hname
  intro x
  rw [hsame, h x]
  refine exists_congr fun mesh => exists_congr fun name => exists_congr fun data => ?_
  refine and_congr_right fun hname => ?_
  rw [hcontent mesh name hname]

/-- An upsert of a kind that is handled. -/
theorem Handles.upsert (hk : k.handled = true) (hkind : (st k).kind = k.resourceKind)
    (h : Handles y st events w k) {typ : DeltaType} {htyp : typ ≠ .deleted} {mesh : String}
    {name : NodeName} (hname : ruleKindOf name = some k)
    (hw : w' k = ((NodeEvent.upsert typ htyp mesh name data).process y st w k).2) :
    Handles y st (events ++ [.upsert typ htyp mesh name data]) w' k := by
  obtain ⟨r, hr, hrkind, hkey⟩ := RuleKind.toResource_of_handled hk y mesh name data
  have hprocess : (processConfigUpsert (st k).toResourceStore k.eventContext (w k) (some r)).2 =
      w' k := by
    rw [hw, NodeEvent.process, hr]
  obtain ⟨hleaves, hchanges⟩ :=
    processConfigUpsert_spec h.valid (hrkind.trans hkind.symm) hprocess
  refine ⟨hleaves.valid, h.exact.upsert hk hname hr hleaves.stored, fun hnone => ?_, fun _ => ?_⟩
  · cases hnone _ (List.mem_append_right _ List.mem_cons_self) hname
  · by_cases hfirst : ∃ e ∈ events, e.kind = some k ∧ e.content ≠ none
    · obtain ⟨r', rest, htwice⟩ := h.twice hfirst
      exact ⟨r', _, by rw [hchanges, htwice]; rfl⟩
    · -- Nothing was stored, so that the rule is added.
      have hnone : ∀ e ∈ events, e.kind = some k → e.content = none := by
        intro e he hekind
        by_contra hcontent
        exact hfirst ⟨e, he, hekind, hcontent⟩
      have habsent : ((st k).stored (w k).store).get? r.resourceKey = none := by
        rw [h.exact.stored_empty hnone, Keyed.get?_empty]
      refine ⟨r, [], ?_⟩
      rw [hchanges, h.quiet hnone, habsent]
      rfl

/-- A deletion of a kind that is handled. -/
theorem Handles.delete (hk : k.handled = true) (h : Handles y st events w k) {mesh : String}
    {name : NodeName} (hw : w' k = ((NodeEvent.delete mesh name data).process y st w k).2) :
    Handles y st (events ++ [.delete mesh name data]) w' k := by
  have hbefore : (∃ e ∈ events ++ [.delete mesh name data], e.kind = some k ∧ e.content ≠ none) →
      ∃ e ∈ events, e.kind = some k ∧ e.content ≠ none := by
    rintro ⟨e, he, hekind, hcontent⟩
    rcases List.mem_append.mp he with he | he
    · exact ⟨e, he, hekind, hcontent⟩
    · obtain rfl := List.mem_singleton.mp he
      exact absurd rfl hcontent
  cases hget : ((st k).stored (w k).store).get? (buildResourceKey mesh name) with
  | none =>
    have hsame : w' k = w k := hw.trans (processConfigDelete_absent hget)
    have hstored : (st k).stored (w' k).store =
        ((st k).stored (w k).store).erase (buildResourceKey mesh name) := by
      rw [hsame, Keyed.erase_of_absent hget]
    refine ⟨by rw [hsame]; exact h.valid, h.exact.delete hk hstored, fun hnone => ?_,
      fun hupsert => ?_⟩
    · rw [hsame]
      exact h.quiet fun e he => hnone e (List.mem_append_left _ he)
    · rw [hsame]
      exact h.twice (hbefore hupsert)
  | some old =>
    obtain ⟨hleaves, hchanges⟩ := processConfigDelete_present h.valid hget hw.symm
    refine ⟨hleaves.valid, h.exact.delete hk hleaves.stored, fun hnone => ?_, fun hupsert => ?_⟩
    · -- What is deleted was stored by an upsert.
      have hempty := h.exact.stored_empty fun e he => hnone e (List.mem_append_left _ he)
      rw [hempty, Keyed.get?_empty] at hget
      cases hget
    · obtain ⟨r, rest, htwice⟩ := h.twice (hbefore hupsert)
      exact ⟨r, _, by rw [hchanges, htwice]; rfl⟩

theorem Handles.other (h : Handles y st events w k) {e : NodeEvent Text} (he : e.kind ≠ some k)
    (hsame : w' k = w k) : Handles y st (events ++ [e]) w' k := by
  refine ⟨by rw [hsame]; exact h.valid, h.exact.other he hsame, fun hnone => ?_, ?_⟩
  · rw [hsame]
    exact h.quiet fun e he => hnone e (List.mem_append_left _ he)
  · rintro ⟨e', he', hkind, hcontent⟩
    rw [hsame]
    refine h.twice ⟨e', ?_, hkind, hcontent⟩
    refine (List.mem_append.mp he').resolve_right fun hlast => he ?_
    obtain rfl := List.mem_singleton.mp hlast
    exact hkind

/-- One more event. -/
theorem Handles.step (hk : k.handled = true) (hkind : (st k).kind = k.resourceKind)
    (h : Handles y st events w k) (e : NodeEvent Text) :
    Handles y st (events ++ [e]) (processZKConfig y st w e.event).2 k := by
  obtain ⟨unknown, hprocess⟩ := processZKConfig_event y st w e
  rw [hprocess]
  by_cases he : e.kind = some k
  · have hself : (dispatchRule w e.name unknown fun k => e.process y st w k).2 k =
        (e.process y st w k).2 := dispatchRule_self he hk
    cases e with
    | upsert typ htyp mesh name data => exact h.upsert hk hkind he hself
    | delete mesh name data => exact h.delete hk hself
  · exact h.other he (dispatchRule_other he)

theorem processAll_append_singleton (y : Yaml Text) (st : RuleStores S) (w : RuleWorlds S)
    (events : List (NodeEvent Text)) (e : NodeEvent Text) :
    processAll y st w (events ++ [e]) =
      (processZKConfig y st (processAll y st w events) e.event).2 := by
  unfold processAll
  rw [List.foldl_append]
  rfl

/-- A run from empty stores. -/
theorem handles_processAll (hk : k.handled = true) (hfresh : Fresh st w)
    (events : List (NodeEvent Text)) : Handles y st events (processAll y st w events) k := by
  obtain ⟨hvalid, hempty, hevents, hkind⟩ := hfresh k
  induction events using List.reverseRecOn with
  | nil =>
    refine ⟨hvalid, fun r => ?_, fun _ => ?_, ?_⟩
    · show r ∈ ((st k).stored (w k).store).items ↔ _
      rw [hempty]
      constructor
      · exact nofun
      · rintro ⟨mesh, name, data, -, hcontent, -⟩
        cases hcontent
    · show (w k).events.map _ = []
      rw [hevents]
      rfl
    · rintro ⟨e, he, -⟩
      cases he
  | append_singleton events e ih =>
    rw [processAll_append_singleton]
    exact ih.step hk hkind e

theorem processAll_unhandled (hk : k.handled = false) (y : Yaml Text) (st : RuleStores S)
    (w : RuleWorlds S) (events : List (NodeEvent Text)) : processAll y st w events k = w k := by
  induction events using List.reverseRecOn with
  | nil => rfl
  | append_singleton events e ih =>
    obtain ⟨unknown, hprocess⟩ := processZKConfig_event y st (processAll y st w events) e
    rw [processAll_append_singleton, hprocess, dispatchRule_unhandled hk]
    exact ih

end Handled

/-! ## Stores and events -/

theorem follow_twice {σ : Type} (r : Resource σ) (rest : List (ResourceChangedEvent σ)) :
    follow (⟨.added, none, some r⟩ :: ⟨.added, none, some r⟩ :: rest) = none := by
  have hpresent : ((Keyed.empty.put r : Contents σ).get? r.resourceKey).isNone = false := by
    rw [Keyed.get?_put_self]
    rfl
  have hsecond : followEvent (Keyed.empty.put r) ⟨.added, none, some r⟩ = none := by
    unfold followEvent
    dsimp only
    rw [hpresent]
    rfl
  show (followEvent (Keyed.empty.put r) ⟨.added, none, some r⟩ >>= fun m =>
    rest.foldlM followEvent m) = none
  rw [hsecond]
  rfl

theorem NodeEvent.Legal.exists_resource {y : Yaml Text} {e : NodeEvent Text} (h : e.Legal y)
    {k : RuleKind} {data : Text} (hkind : e.kind = some k) (hcontent : e.content = some data) :
    ∃ r, k.toResource y e.mesh e.name data = some r := by
  have hlegal := h k data hkind hcontent
  cases k with
  | configurators | conditionRouter | tagRouter => exact ⟨_, rfl⟩
  | affinityRouter | scriptRouter =>
    obtain ⟨r, hr⟩ := hlegal
    exact ⟨r, congrArg Except.toOption hr⟩

/-- The stores of the kinds that the subscriber handles hold exactly the decoded rules of the nodes
that exist, after any sequence of events. -/
theorem handled_stores_exact (y : Yaml Text) {st : RuleStores S} {w : RuleWorlds S}
    (hfresh : Fresh st w) {k : RuleKind} (hk : k.handled = true) (events : List (NodeEvent Text)) :
    StoreExact y st events (processAll y st w events) k :=
  (handles_processAll hk hfresh events).exact

/-- From empty stores and with data that decode, the stores are exact and the events can be
followed, for all kinds of rules, if and only if no condition route, tag route or dynamic
configuration was ever put into a node, and no affinity route and no script route is in a node at
the end. -/
theorem zkConfig_followed_iff (y : Yaml Text) (st : RuleStores S) (w : RuleWorlds S)
    (hfresh : Fresh st w) (events : List (NodeEvent Text)) (hlegal : ∀ e ∈ events, e.Legal y) :
    (∀ k, StoreExact y st events (processAll y st w events) k ∧
      Followed st events (processAll y st w events) k) ↔
    (∀ e ∈ events, ∀ k, e.kind = some k → k.handled = true → e.content = none) ∧
      ∀ mesh (name : NodeName) k, ruleKindOf name = some k → k.handled = false →
        contentOf events mesh name = none := by
  constructor
  · intro h
    refine ⟨fun e he k hkind hk => ?_, fun mesh name k hname hk => ?_⟩
    · -- The first upsert would have sent an event that does not fit.
      by_contra hcontent
      obtain ⟨r, rest, htwice⟩ :=
        (handles_processAll (y := y) hk hfresh events).twice ⟨e, he, hkind, hcontent⟩
      have hfollow := (h k).2.1
      rw [htwice, follow_twice] at hfollow
      cases hfollow
    · -- The store of the kind is still empty.
      cases hcontent : contentOf events mesh name with
      | none => rfl
      | some data =>
        obtain ⟨e, he, rfl, rfl, hdata⟩ := exists_upsert_of_contentOf hcontent
        obtain ⟨r, hr⟩ := (hlegal e he).exists_resource hname hdata
        have hmem := ((h k).1 r).mpr ⟨e.mesh, e.name, data, hname, hcontent, hr⟩
        rw [processAll_unhandled hk, (hfresh k).2.1] at hmem
        cases hmem
  · rintro ⟨hhandled, hunhandled⟩ k
    cases hk : k.handled with
    | true =>
      have hrun := handles_processAll (y := y) hk hfresh events
      have hnone := fun e he hkind => hhandled e he k hkind hk
      refine ⟨hrun.exact, ?_, ?_⟩
      · rw [hrun.quiet hnone, hrun.exact.stored_empty hnone]
        rfl
      · rw [hrun.quiet hnone]
        exact Nat.zero_le _
    | false =>
      obtain ⟨-, hempty, hevents, -⟩ := hfresh k
      refine ⟨fun r => ?_, ?_, ?_⟩
      · rw [processAll_unhandled hk, hempty]
        constructor
        · exact nofun
        · rintro ⟨mesh, name, data, hname, hcontent, -⟩
          rw [hunhandled mesh name k hname hk] at hcontent
          cases hcontent
      · rw [processAll_unhandled hk, hempty, RuleWorld.changes, hevents]
        rfl
      · rw [processAll_unhandled hk, RuleWorld.changes, hevents]
        exact Nat.zero_le _

end Run

/-! ## Samples -/

/-- Memory stores for all kinds of rules. -/
def memoryRuleStores : RuleStores fun k => Memory.ResourceStore (RuleObject k.Spec) := fun k =>
  memoryStore k.resourceKind (AList.singleton byMeshIndex byMesh) fun _ _ => rfl

/-- Empty memory stores. -/
def emptyRuleWorlds : RuleWorlds fun k => Memory.ResourceStore (RuleObject k.Spec) := fun _ =>
  ⟨Memory.init (AList.singleton byMeshIndex byMesh), [], []⟩

theorem fresh_memoryRuleStores : Fresh memoryRuleStores emptyRuleWorlds :=
  fun _ => ⟨rfl, rfl, rfl, rfl⟩

/-- A node with a script route. -/
def scriptNode : NodeName := ⟨"shop.script-router", by decide⟩

/-- A node with a tag route. -/
def tagNode : NodeName := ⟨"shop.tag-router", by decide⟩

/-- The document of a script route. -/
def scriptDocument : Json :=
  .object [("configVersion", .string "v3.0"), ("scope", .string "application"),
    ("key", .string "shop"), ("enabled", .bool true), ("type", .string "javascript"),
    ("script", .string "x")]

/-- The document of a tag route. -/
def tagDocument : Json := .object [("key", .string "shop"), ("enabled", .bool true)]

/-- A script route is put into its node. -/
def scriptUpsert : NodeEvent Json := .upsert .added nofun "default" scriptNode scriptDocument

/-- A tag route is put into its node. -/
def tagUpsert : NodeEvent Json := .upsert .added nofun "default" tagNode tagDocument

theorem legal_scriptUpsert : scriptUpsert.Legal Yaml.plain := by
  intro k data hkind hcontent
  obtain rfl : RuleKind.scriptRouter = k := Option.some.inj hkind
  obtain rfl : scriptDocument = data := Option.some.inj hcontent
  exact ⟨_, rfl⟩

theorem legal_tagUpsert : tagUpsert.Legal Yaml.plain := by
  intro k data hkind hcontent
  obtain rfl : RuleKind.tagRouter = k := Option.some.inj hkind
  obtain rfl : tagDocument = data := Option.some.inj hcontent
  rfl

/-- A script route that is put into its node and removed: the stores are exact and the events can be
followed. -/
theorem zkConfig_followed_removed_script :
    StoreExact Yaml.plain memoryRuleStores
        [scriptUpsert, .delete "default" scriptNode scriptDocument]
        (processAll Yaml.plain memoryRuleStores emptyRuleWorlds
          [scriptUpsert, .delete "default" scriptNode scriptDocument]) .scriptRouter ∧
      Followed memoryRuleStores [scriptUpsert, .delete "default" scriptNode scriptDocument]
        (processAll Yaml.plain memoryRuleStores emptyRuleWorlds
          [scriptUpsert, .delete "default" scriptNode scriptDocument]) .scriptRouter := by
  have hlegal : ∀ e ∈ [scriptUpsert, .delete "default" scriptNode scriptDocument],
      e.Legal Yaml.plain := by
    simp only [List.forall_mem_cons]
    exact ⟨legal_scriptUpsert, (fun _ _ _ hcontent => nomatch hcontent), nofun⟩
  refine (zkConfig_followed_iff Yaml.plain memoryRuleStores emptyRuleWorlds fresh_memoryRuleStores
    _ hlegal).mpr ⟨?_, fun mesh name k _ _ => ?_⟩ .scriptRouter
  · simp only [List.forall_mem_cons]
    refine ⟨fun k hkind hk => ?_, fun _ _ _ => rfl, nofun⟩
    obtain rfl : RuleKind.scriptRouter = k := Option.some.inj hkind
    cases hk
  · unfold contentOf
    rw [List.foldl_cons, List.foldl_cons, List.foldl_nil]
    by_cases hnode : "default" = mesh ∧ scriptNode = name
    · exact if_pos hnode
    · exact (if_neg hnode).trans (if_neg hnode)

/-- A tag route that is put into its node is stored. -/
theorem handled_tag_stored : Fresh memoryRuleStores emptyRuleWorlds ∧
    StoreExact Yaml.plain memoryRuleStores [tagUpsert]
      (processAll Yaml.plain memoryRuleStores emptyRuleWorlds [tagUpsert]) .tagRouter :=
  ⟨fresh_memoryRuleStores, handled_stores_exact Yaml.plain fresh_memoryRuleStores rfl _⟩

/-- A tag route that is put into its node is sent as added twice, and a script route that is put
into its node is not stored. -/
theorem zkConfig_not_followed :
    (tagUpsert.Legal Yaml.plain ∧ ¬ Followed memoryRuleStores [tagUpsert]
      (processAll Yaml.plain memoryRuleStores emptyRuleWorlds [tagUpsert]) .tagRouter) ∧
    scriptUpsert.Legal Yaml.plain ∧ ¬ StoreExact Yaml.plain memoryRuleStores [scriptUpsert]
      (processAll Yaml.plain memoryRuleStores emptyRuleWorlds [scriptUpsert]) .scriptRouter := by
  refine ⟨⟨legal_tagUpsert, fun h => ?_⟩, legal_scriptUpsert, fun h => ?_⟩
  · have hhandled : RuleKind.tagRouter.handled = true := rfl
    have hrun := handles_processAll (y := Yaml.plain) hhandled fresh_memoryRuleStores [tagUpsert]
    obtain ⟨r, rest, htwice⟩ := hrun.twice ⟨tagUpsert, List.mem_cons_self, rfl, nofun⟩
    have hfollow := h.1
    rw [htwice, follow_twice] at hfollow
    cases hfollow
  · obtain ⟨r, hr⟩ := legal_scriptUpsert.exists_resource (k := .scriptRouter) rfl rfl
    have hmem := (h r).mpr ⟨"default", scriptNode, scriptDocument, rfl, rfl, hr⟩
    rw [processAll_unhandled rfl] at hmem
    cases hmem

end DubboAdmin.Discovery
