import DubboAdmin.Lib.Patterns
import DubboAdmin.Nacos.Consumers
import DubboAdmin.Nacos.Instances

/-!
# The names of Nacos services

`processUpsert` and `processDelete` of `pkg/core/discovery/subscriber/nacos_service.go` tell by two
patterns what a Nacos service stands for: a service `providers:<interface>…` is ignored, a service
`consumers:<interface>…` has the consumers of the interface, and any other one is an application.
A version and a group may follow the interface, but the patterns leave no place for both
(`matchString_interfaceRe`), and a service with both is taken for an application
(`serviceNames_treated_iff`).
-/

namespace DubboAdmin.Nacos

open Controller (World)
open Discovery Instances Patterns Strings

/-! ## The subscriber -/

/-- `[\w.]`. -/
def wordChars : List Char :=
  "ABCDEFGHIJKLMNOPQRSTUVWXYZabcdefghijklmnopqrstuvwxyz0123456789_.".toList

/-- The pattern `<side>:[\w.]+(?::[\w.]*:|::[\w.]*)?` of a whole name. -/
def interfaceRe (side : String) : RegularExpression Char :=
  literal (side ++ ":").toList * (many (oneOf wordChars) *
    optional (literal [':'] * (.star (oneOf wordChars) * literal [':']) +
      literal [':', ':'] * .star (oneOf wordChars)))

def providerRe : RegularExpression Char := interfaceRe "providers"

def consumerRe : RegularExpression Char := interfaceRe "consumers"

variable {σ S C I : Type}

/-- The end of both deletions: what the indices find is deleted. An error is logged, and the event
is sent all the same. -/
def deleteListed (st : QueryStore σ S) (indexes : List IndexCondition) (w : World σ S) :
    Except Failure Unit × World σ S :=
  match st.listByIndexes w.store indexes with
  | .error e => (.error e, w)
  | .ok resources => (.ok (), resources.foldl
      (fun w item => ⟨(st.delete w.store item).2, w.events ++ [deletedEvent item]⟩) w)

/-- The subscriber with its stores. `text` is the `String()` of a service resource. -/
structure NacosServiceEventSubscriber (C I : Type) where
  consumerStore : ConsumerStore C
  instanceStore : RPCInstanceStore I
  formats : Formats
  text : NacosServiceResource → String

/-- What one event meets: whether the router finds the stores, and the orders of the maps. -/
structure Circumstances where
  consumerRoute : Except Failure Unit
  instanceRoute : Except Failure Unit
  consumerWalk : WalkOrder (String × Option ServiceConsumerMetadataResource)
  instanceWalk : WalkOrder (String × Option RPCInstanceResource)

/-- Both stores, with the events that were sent. -/
structure Worlds (C I : Type) where
  consumers : World ServiceConsumerMetadata C
  instances : World (Option RPCInstance) I

/-- The result of a function that works on the consumers. -/
def Worlds.onConsumers (w : Worlds C I)
    (out : Except Failure Unit × World ServiceConsumerMetadata C) :
    Except Failure Unit × Worlds C I :=
  (out.1, { w with consumers := out.2 })

/-- The result of a function that works on the instances. -/
def Worlds.onInstances (w : Worlds C I) (out : Except Failure Unit × World (Option RPCInstance) I) :
    Except Failure Unit × Worlds C I :=
  (out.1, { w with instances := out.2 })

namespace NacosServiceEventSubscriber

variable (sub : NacosServiceEventSubscriber C I) (cs : Circumstances)
  (serviceRes : NacosServiceResource) (w : Worlds C I)

/-- The indices that find the consumers of an interface. -/
def consumersOf (serviceName : String) : List IndexCondition :=
  equalsAll [(byMeshIndex, serviceRes.mesh), (byServiceConsumerServiceNameIndex, serviceName)]

def processServiceConsumerDelete (w : World ServiceConsumerMetadata C) :
    Except Failure Unit × World ServiceConsumerMetadata C :=
  match cs.consumerRoute with
  | .error e => (.error e, w)
  | .ok () =>
  match parseServiceName serviceRes.name with
  | .error e => (.error (unknownError
      ("parse service name error, raw nacos service is" ++ sub.text serviceRes) e), w)
  | .ok serviceName =>
    deleteListed sub.consumerStore.toQueryStore (consumersOf serviceRes serviceName) w

def processRPCInstanceDelete (w : World (Option RPCInstance) I) :
    Except Failure Unit × World (Option RPCInstance) I :=
  match cs.instanceRoute with
  | .error e => (.error e, w)
  | .ok () => deleteListed sub.instanceStore.toQueryStore (equalsAll
      [(byMeshIndex, serviceRes.mesh), (byRPCInstanceAppNameIndex, serviceRes.name)]) w

def processUpsert : Except Failure Unit × Worlds C I :=
  if matchString providerRe serviceRes.name then (.ok (), w)
  else if matchString consumerRe serviceRes.name then
    w.onConsumers (processConsumerMetadataUpsert sub.consumerStore sub.text cs.consumerRoute
      cs.consumerWalk serviceRes w.consumers)
  else
    w.onInstances (processRPCInstanceUpsert sub.instanceStore sub.formats cs.instanceRoute
      cs.instanceWalk serviceRes w.instances)

def processDelete : Except Failure Unit × Worlds C I :=
  if matchString providerRe serviceRes.name then (.ok (), w)
  else if matchString consumerRe serviceRes.name then
    w.onConsumers (sub.processServiceConsumerDelete cs serviceRes w.consumers)
  else w.onInstances (sub.processRPCInstanceDelete cs serviceRes w.instances)

/-! ## What a name stands for -/

/-- What a service is taken for. -/
inductive Treatment where
  | ignored
  /-- The consumers of an interface. -/
  | consumers (serviceName : String)
  | application

/-- An upsert under a treatment. For the consumers of an interface, the metadata of the instances
replaces what is stored for the interface. -/
def upsertAs : Treatment → Except Failure Unit × Worlds C I
  | .ignored => (.ok (), w)
  | .consumers serviceName =>
    match serviceRes.spec with
    | none => (.error nilDereference, w)
    | some spec =>
      match cs.consumerRoute with
      | .error e => (.error e, w)
      | .ok () => w.onConsumers (reconcile sub.consumerStore.toQueryStore cs.consumerWalk
          (consumersOf serviceRes serviceName)
          (Keyed.ofList (spec.instances.map (consumerEntry serviceRes.mesh))) w.consumers)
  | .application => w.onInstances (processRPCInstanceUpsert sub.instanceStore sub.formats
      cs.instanceRoute cs.instanceWalk serviceRes w.instances)

/-- A deletion under a treatment. -/
def deleteAs : Treatment → Except Failure Unit × Worlds C I
  | .ignored => (.ok (), w)
  | .consumers serviceName =>
    match cs.consumerRoute with
    | .error e => (.error e, w)
    | .ok () => w.onConsumers (deleteListed sub.consumerStore.toQueryStore
        (consumersOf serviceRes serviceName) w.consumers)
  | .application => w.onInstances (sub.processRPCInstanceDelete cs serviceRes w.instances)

/-- Upserts and deletions of the services of a name follow the treatment. -/
def Treated (name : String) (t : Treatment) : Prop :=
  ∀ cs serviceRes w, serviceRes.name = name →
    sub.processUpsert cs serviceRes w = sub.upsertAs cs serviceRes w t ∧
      sub.processDelete cs serviceRes w = sub.deleteAs cs serviceRes w t

theorem treated_ignored {name : String} (h : matchString providerRe name = true) :
    sub.Treated name .ignored := by
  rintro cs serviceRes w rfl
  exact ⟨if_pos h, if_pos h⟩

theorem treated_consumers {name serviceName : String} (hp : matchString providerRe name = false)
    (hc : matchString consumerRe name = true) (hparse : parseServiceName name = .ok serviceName) :
    sub.Treated name (.consumers serviceName) := by
  rintro cs serviceRes w rfl
  unfold processUpsert processDelete upsertAs deleteAs processConsumerMetadataUpsert
    processServiceConsumerDelete
  rw [hp, hc, hparse]
  constructor
  · cases serviceRes.spec with
    | none => rfl
    | some spec => cases cs.consumerRoute <;> rfl
  · cases cs.consumerRoute <;> rfl

theorem treated_application {name : String} (hp : matchString providerRe name = false)
    (hc : matchString consumerRe name = false) : sub.Treated name .application := by
  rintro cs serviceRes w rfl
  unfold processUpsert processDelete
  rw [hp, hc]
  exact ⟨rfl, rfl⟩

end NacosServiceEventSubscriber

/-! ## The patterns -/

/-- The two kinds of interface names. -/
inductive Side where
  | providers
  | consumers
deriving DecidableEq

def Side.text : Side → String
  | .providers => "providers"
  | .consumers => "consumers"

/-- The version and the group of an interface name, where it has them. -/
def tailText : Option (String × String) → String
  | none => ""
  | some (version, group) => ":" ++ (version ++ ":" ++ group)

def interfaceName (side : Side) (serviceName : String) (tail : Option (String × String)) : String :=
  side.text ++ ":" ++ (serviceName ++ tailText tail)

/-- A text of letters, digits, `_` and `.`. -/
def Word (s : String) : Prop := ∀ c ∈ s.toList, c ∈ wordChars

/-- The parts of an interface name are words, and the interface is not empty. -/
structure WellFormed (serviceName : String) (tail : Option (String × String)) : Prop where
  nonempty : serviceName ≠ ""
  word : Word serviceName
  tail : ∀ p ∈ tail, Word p.1 ∧ Word p.2

/-- The version or the group is empty. -/
def OneEmpty (tail : Option (String × String)) : Prop := ∀ p ∈ tail, p.1 = "" ∨ p.2 = ""

section Patterns

variable {side side' : Side} {serviceName serviceName' : String}
  {tail tail' : Option (String × String)}

theorem Word.notMem {s : String} (h : Word s) : ':' ∉ s.toList :=
  fun hmem => absurd (h ':' hmem) (by decide)

theorem word_ofList {l : List Char} : Word (String.ofList l) ↔ ∀ c ∈ l, c ∈ wordChars := by
  rw [Word, String.toList_ofList]

/-- The interface is what stands before the first `:`. -/
theorem cut_tailText (h : WellFormed serviceName tail) :
    cut ':' (serviceName ++ tailText tail) =
      tail.map fun p => (serviceName, p.1 ++ ":" ++ p.2) := by
  match tail with
  | none =>
    rw [tailText, String.append_empty]
    cases hcut : cut ':' serviceName with
    | none => rfl
    | some ab =>
      have hjoin := (cut_eq_some hcut).1
      refine absurd ?_ h.word.notMem
      rw [hjoin, toList_join]
      exact List.mem_append_right _ List.mem_cons_self
  | some (version, group) =>
    have hjoin : serviceName ++ tailText (some (version, group)) =
        serviceName ++ String.singleton ':' ++ (version ++ ":" ++ group) := by
      rw [tailText, ← String.append_assoc]
      rfl
    rw [hjoin, cut_join h.word.notMem]
    rfl

/-- An interface name has its parts one way only. -/
theorem interfaceName_inj (h : WellFormed serviceName tail) (h' : WellFormed serviceName' tail')
    (heq : interfaceName side serviceName tail = interfaceName side' serviceName' tail') :
    side = side' ∧ serviceName = serviceName' ∧ tail = tail' := by
  have hcolon : ∀ side : Side, ':' ∉ side.text.toList := fun side => by cases side <;> decide
  obtain ⟨hside, hrest⟩ := join_inj (hcolon side) (hcolon side') heq
  have hside : side = side' := by
    cases side <;> cases side' <;> first | rfl | exact absurd hside (by decide)
  have hcut := cut_tailText h
  rw [hrest, cut_tailText h'] at hcut
  match tail, tail' with
  | none, none =>
    rw [tailText, String.append_empty, String.append_empty] at hrest
    exact ⟨hside, hrest, rfl⟩
  | some (version, group), some (version', group') =>
    obtain ⟨rfl, hjoin⟩ := Prod.mk.inj (Option.some.inj hcut)
    obtain ⟨rfl, rfl⟩ := join_inj (h'.tail _ rfl).1.notMem (h.tail _ rfl).1.notMem hjoin
    exact ⟨hside, rfl, rfl⟩

theorem toList_interfaceName : (interfaceName side serviceName tail).toList =
    (side.text ++ ":").toList ++ (serviceName.toList ++ (tailText tail).toList) := by
  simp only [interfaceName, String.toList_append]

theorem parseServiceName_interfaceName (h : WellFormed serviceName tail) :
    parseServiceName (interfaceName .consumers serviceName tail) = .ok serviceName := by
  have hlist : (interfaceName .consumers serviceName tail).toList =
      consumersPrefix.toList ++ (serviceName ++ tailText tail).toList := by
    rw [interfaceName, String.toList_append]
    rfl
  have hstarts : hasPrefix (interfaceName .consumers serviceName tail) consumersPrefix = true := by
    rw [hasPrefix_iff, hlist]
    exact List.prefix_append _ _
  unfold parseServiceName
  rw [if_pos hstarts, hlist]
  rw [show consumersPrefix.length = consumersPrefix.toList.length from rfl, List.drop_left,
    String.ofList_toList]
  dsimp only
  rw [cut_tailText h]
  match tail with
  | none => rw [tailText, String.append_empty]; rfl
  | some _ => rfl

/-- What the optional part of the patterns matches. -/
theorem mem_tailRe {w : List Char} :
    w ∈ (optional (literal [':'] * (.star (oneOf wordChars) * literal [':']) +
        literal [':', ':'] * .star (oneOf wordChars))).matches' ↔
      ∃ tail, (∀ p ∈ tail, Word p.1 ∧ Word p.2) ∧ OneEmpty tail ∧ w = (tailText tail).toList := by
  simp only [mem_optional, mem_add_iff, mem_mul_iff, mem_literal, mem_star_oneOf,
    exists_eq_left]
  constructor
  · rintro (rfl | ⟨_, ⟨version, hversion, rfl⟩, rfl⟩ | ⟨group, hgroup, rfl⟩)
    · exact ⟨none, by simp, by simp [OneEmpty], rfl⟩
    · refine ⟨some (String.ofList version, ""), ?_, ?_, ?_⟩
      · rintro _ ⟨⟩
        exact ⟨word_ofList.mpr hversion, by simp [Word]⟩
      · rintro _ ⟨⟩
        exact .inr rfl
      · simp [tailText]
    · refine ⟨some ("", String.ofList group), ?_, ?_, ?_⟩
      · rintro _ ⟨⟩
        exact ⟨by simp [Word], word_ofList.mpr hgroup⟩
      · rintro _ ⟨⟩
        exact .inl rfl
      · simp [tailText]
  · rintro ⟨tail, hword, hempty, rfl⟩
    rcases tail with _ | ⟨version, group⟩
    · exact .inl rfl
    · obtain ⟨hversion, hgroup⟩ := hword _ rfl
      rcases hempty _ rfl with rfl | rfl
      · exact .inr (.inr ⟨group.toList, hgroup, by simp [tailText]⟩)
      · exact .inr (.inl ⟨_, ⟨version.toList, hversion, rfl⟩, by simp [tailText]⟩)

/-- The patterns match the interface names of their side in which the version or the group is
empty. -/
theorem matchString_iff_exists {s : String} : matchString (interfaceRe side.text) s = true ↔
    ∃ serviceName tail, WellFormed serviceName tail ∧ OneEmpty tail ∧
      s = interfaceName side serviceName tail := by
  rw [matchString_iff, interfaceRe]
  simp only [mem_mul_iff, mem_literal, mem_many_oneOf, mem_tailRe, exists_eq_left]
  constructor
  · rintro ⟨_, ⟨word, ⟨hne, hword⟩, _, ⟨tail, htail, hempty, rfl⟩, rfl⟩, heq⟩
    refine ⟨String.ofList word, tail, ⟨?_, word_ofList.mpr hword, htail⟩, hempty, ?_⟩
    · exact fun h => hne (by simpa using congrArg String.toList h)
    · refine String.toList_inj.mp ?_
      rw [← heq, toList_interfaceName, String.toList_ofList]
  · rintro ⟨serviceName, tail, h, hempty, rfl⟩
    refine ⟨_, ⟨serviceName.toList, ⟨?_, h.word⟩, _, ⟨tail, h.tail, hempty, rfl⟩, rfl⟩, ?_⟩
    · exact fun hnil => h.nonempty (String.toList_eq_nil_iff.mp hnil)
    · exact toList_interfaceName.symm

theorem matchString_interfaceRe (h : WellFormed serviceName tail) :
    matchString (interfaceRe side.text) (interfaceName side' serviceName tail) = true ↔
      side' = side ∧ OneEmpty tail := by
  rw [matchString_iff_exists]
  constructor
  · rintro ⟨serviceName', tail', h', hempty, heq⟩
    obtain ⟨hside, -, rfl⟩ := interfaceName_inj h h' heq
    exact ⟨hside, hempty⟩
  · rintro ⟨rfl, hempty⟩
    exact ⟨serviceName, tail, h, hempty, rfl⟩

theorem matchString_eq_false {s : String} (h : hasPrefix s (side.text ++ ":") = false) :
    matchString (interfaceRe side.text) s = false := by
  rw [← Bool.not_eq_true] at h ⊢
  refine mt (fun hmatch => ?_) h
  obtain ⟨serviceName, tail, -, -, rfl⟩ := matchString_iff_exists.mp hmatch
  rw [hasPrefix_iff, toList_interfaceName]
  exact List.prefix_append _ _

end Patterns

/-- What the services of a side are to be taken for. -/
def Side.treatment (serviceName : String) : Side → NacosServiceEventSubscriber.Treatment
  | .providers => .ignored
  | .consumers => .consumers serviceName

namespace NacosServiceEventSubscriber

/-- A service that is taken for an application is not treated in another way: the routes to the
two stores may fail differently. -/
theorem Treated.application_unique {sub : NacosServiceEventSubscriber C I} {name : String}
    (w : Worlds C I) (h : sub.Treated name .application) {t : Treatment} (ht : sub.Treated name t) :
    t = .application := by
  let cs : Circumstances :=
    ⟨.error (.err "consumers"), .error (.err "instances"), .given _, .given _⟩
  let serviceRes : NacosServiceResource := ⟨nacosServiceKind, "", name, none⟩
  have heq := (h cs serviceRes w rfl).2.symm.trans (ht cs serviceRes w rfl).2
  have hresult := congrArg Prod.fst heq
  match t with
  | .ignored => cases hresult
  | .consumers _ => exact absurd hresult (by simp [deleteAs, processRPCInstanceDelete, cs,
      Worlds.onInstances])
  | .application => rfl

/-- A service with an interface name is ignored, or has the consumers of that interface, if and
only if its version or its group is empty. A service of a name without such a beginning is an
application. -/
theorem serviceNames_treated_iff (sub : NacosServiceEventSubscriber C I) (w : Worlds C I) :
    (∀ (side : Side) serviceName tail, WellFormed serviceName tail →
      (sub.Treated (interfaceName side serviceName tail) (side.treatment serviceName) ↔
        OneEmpty tail)) ∧
    ∀ name, (∀ side : Side, hasPrefix name (side.text ++ ":") = false) →
      sub.Treated name .application := by
  have hfalse : ∀ side {side' : Side} {serviceName tail}, WellFormed serviceName tail →
      ¬ (side' = side ∧ OneEmpty tail) →
      matchString (interfaceRe side.text) (interfaceName side' serviceName tail) = false :=
    fun _ _ _ _ h hne => Bool.not_eq_true _ ▸ mt (matchString_interfaceRe h).mp hne
  constructor
  · intro side serviceName tail h
    constructor
    · intro ht
      by_contra hboth
      have happ : sub.Treated (interfaceName side serviceName tail) .application :=
        sub.treated_application (hfalse .providers h fun hh => hboth hh.2)
          (hfalse .consumers h fun hh => hboth hh.2)
      have heq := happ.application_unique w ht
      cases side <;> cases heq
    · intro hempty
      have htrue := (@matchString_interfaceRe side _ _ _ h).mpr ⟨rfl, hempty⟩
      cases side with
      | providers => exact sub.treated_ignored htrue
      | consumers =>
        exact sub.treated_consumers (hfalse .providers h fun hh => nomatch hh.1) htrue
          (parseServiceName_interfaceName h)
  · intro name hstarts
    have hnone : ∀ side : Side, matchString (interfaceRe side.text) name = false :=
      fun side => matchString_eq_false (hstarts side)
    exact sub.treated_application (hnone .providers) (hnone .consumers)

/-- A subscriber with empty memory stores. -/
def sampleSubscriber : NacosServiceEventSubscriber (Memory.ResourceStore ServiceConsumerMetadata)
    (Memory.ResourceStore (Option RPCInstance)) :=
  ⟨memoryConsumerStore, memoryRPCInstanceStore, sampleFormats, Resource.name⟩

/-- An interface name is well formed, where its parts are words by a check of their characters. -/
theorem wellFormed_greeter {version group : String}
    (hversion : version.toList.Forall (· ∈ wordChars))
    (hgroup : group.toList.Forall (· ∈ wordChars)) :
    WellFormed "Greeter" (some (version, group)) := by
  refine ⟨by decide, List.forall_iff_forall_mem.mp (by decide), ?_⟩
  rintro _ ⟨⟩
  exact ⟨List.forall_iff_forall_mem.mp hversion, List.forall_iff_forall_mem.mp hgroup⟩

/-- The consumers of `Greeter` in version `1.0` without a group are taken for what they are, and the
service `shop` for an application. -/
theorem serviceNames_treated_greeter :
    sampleSubscriber.Treated "consumers:Greeter:1.0:" (.consumers "Greeter") ∧
      sampleSubscriber.Treated "shop" .application := by
  have h := serviceNames_treated_iff sampleSubscriber
    ⟨⟨Memory.init consumerIndexers, []⟩, ⟨Memory.init rpcInstanceIndexers, []⟩⟩
  refine ⟨(h.1 .consumers "Greeter" (some ("1.0", "")) (wellFormed_greeter ?_ ?_)).mpr ?_,
    h.2 "shop" fun side => ?_⟩
  · decide
  · decide
  · rintro _ ⟨⟩
    exact .inr rfl
  · cases side <;> decide

/-- The consumers of `Greeter` in version `1.0` and group `blue` are taken for an application, and
not for consumers of the interface. -/
theorem versioned_group_is_application :
    WellFormed "Greeter" (some ("1.0", "blue")) ∧
      sampleSubscriber.Treated "consumers:Greeter:1.0:blue" .application ∧
      ¬ sampleSubscriber.Treated "consumers:Greeter:1.0:blue" (.consumers "Greeter") := by
  have h : WellFormed "Greeter" (some ("1.0", "blue")) :=
    wellFormed_greeter (by decide) (by decide)
  have hboth : ¬ OneEmpty (some ("1.0", "blue")) := fun hempty => by
    rcases hempty _ rfl with h | h <;> exact absurd h (by decide)
  have hname : interfaceName .consumers "Greeter" (some ("1.0", "blue")) =
      "consumers:Greeter:1.0:blue" := by decide
  have hfalse : ∀ side : Side,
      matchString (interfaceRe side.text) "consumers:Greeter:1.0:blue" = false := fun side => by
    rw [← hname, ← Bool.not_eq_true]
    exact fun hmatch => hboth ((matchString_interfaceRe h).mp hmatch).2
  have happ := sampleSubscriber.treated_application (hfalse .providers) (hfalse .consumers)
  refine ⟨h, happ, fun ht => ?_⟩
  have heq := happ.application_unique
    ⟨⟨Memory.init consumerIndexers, []⟩, ⟨Memory.init rpcInstanceIndexers, []⟩⟩ ht
  cases heq

end NacosServiceEventSubscriber

end DubboAdmin.Nacos
