import DubboAdmin.Console.Scenes

/-!
# Flow weights and gray environments of an application

The two scenes of the console (`pkg/console/service/application.go`): `UpInsertAppFlowWeightConfig`
keeps flow weights as overrides of the application's configurator, and `UpInsertAppGrayConfig` keeps
gray environments as tags of its tag rule. The conversions of string matches are those of
`pkg/console/model/configurator_rule.go`.

`appSettings_putGet_iff` says when they obey put-get. A flow weight without a scope is written with
an empty list, which is not stored, and a gray environment without a name is not recognised either.
-/

namespace DubboAdmin.Console

open Versioning
open Rules (Slice OverrideConfig DynamicConfig Tag TagRoute)
open Json (nilIfEmpty nilIfEmptyMap)
open Prog (EnsuresOk)
open Strings (parseInt64)

/-! ## Matches -/

namespace Model

/-- `StringMatch` of the console. -/
structure StringMatch where
  empty : Option String := none
  exact : Option String := none
  noempty : Option String := none
  start : Option String := none
  regex : Option String := none
  wildcard : Option String := none
deriving DecidableEq, Repr

/-- `ParamMatch` of the console. -/
structure ParamMatch where
  key : Option String
  value : Option StringMatch
deriving DecidableEq, Repr

/-- `FlowWeightSet`: a weight and what it is for. -/
structure FlowWeightSet where
  weight : Int32
  scope : List ParamMatch
deriving DecidableEq

/-- `GraySet`: an environment by its name. -/
structure GraySet where
  envName : String
  scope : List ParamMatch
deriving DecidableEq

/-- The matches with one field, which is set to the text. -/
def StringMatch.withText (v : String) : List StringMatch :=
  [{ exact := some v }, { start := some v }, { regex := some v }, { noempty := some v },
    { empty := some v }, { wildcard := some v }]

/-- No field of the match is set, or one, and not to the empty text. -/
def StringMatch.Single (m : StringMatch) : Prop := m = {} ∨ ∃ v, v ≠ "" ∧ m ∈ withText v

end Model

/-- `StringMatchToModelStringMatch`, of a match that is not `nil`. -/
def stringMatchToModelStringMatch (m : Rules.StringMatch) : Model.StringMatch :=
  if m.exact ≠ "" then { exact := some m.exact }
  else if m.start ≠ "" then { start := some m.start }
  else if m.regex ≠ "" then { regex := some m.regex }
  else if m.noempty ≠ "" then { noempty := some m.noempty }
  else if m.empty ≠ "" then { empty := some m.empty }
  else if m.wildcard ≠ "" then { wildcard := some m.wildcard }
  else {}

/-- `ModelStringMatchToStringMatch`, of a match that is not `nil`. -/
def modelStringMatchToStringMatch (m : Model.StringMatch) : Rules.StringMatch :=
  if let some v := m.exact then ⟨v, "", "", "", "", ""⟩
  else if let some v := m.start then ⟨"", v, "", "", "", ""⟩
  else if let some v := m.regex then ⟨"", "", v, "", "", ""⟩
  else if let some v := m.noempty then ⟨"", "", "", v, "", ""⟩
  else if let some v := m.empty then ⟨"", "", "", "", v, ""⟩
  else if let some v := m.wildcard then ⟨"", "", "", "", "", v⟩
  else ⟨"", "", "", "", "", ""⟩

/-- The scope that the getters make of matches. -/
def toScope (params : List Rules.ParamMatch) : List Model.ParamMatch :=
  params.map fun param => ⟨some param.key, param.value.map stringMatchToModelStringMatch⟩

/-- The matches that are made of a scope, where each key is not `nil`. -/
def fromScope (scope : List Model.ParamMatch) : Option (List Rules.ParamMatch) :=
  scope.mapM fun m => m.key.map fun key => ⟨key, m.value.map modelStringMatchToStringMatch⟩

/-! ## Flow weights -/

/-- Whether an override has the shape of a flow weight. -/
def isFlowWeightConfig (conf : OverrideConfig) : Bool :=
  if conf.side ≠ "provider" then false
  else match conf.parameters, conf.cond with
    | some parameters, some m =>
      if m.param = none then false else (parameters.get? "weight").isSome
    | _, _ => false

/-- The set that `GetAppFlowWeight` reads from an override, where the weight is a number. -/
def toFlowWeightSet (conf : OverrideConfig) : Option Model.FlowWeightSet :=
  match conf.parameters, conf.cond with
  | some parameters, some m =>
    (parseInt64 (parameters.value "weight")).map fun weight =>
      ⟨Int32.ofInt weight, toScope m.param.elements⟩
  | _, _ => none

/-- The override of a flow weight, or nothing where a `nil` key is followed. -/
def fromFlowWeightSet (set : Model.FlowWeightSet) : Option OverrideConfig :=
  (fromScope set.scope).map fun paramMatch => {
    side := "provider"
    addresses := none
    providerAddresses := none
    parameters := some (Keyed.empty.put ("weight", toString set.weight.toInt))
    applications := none
    services := none
    type := ""
    enabled := false
    cond := some ⟨none, none, none, none, some paramMatch⟩
    xGenerateByCp := true }

/-- The flow weights of an application. -/
def flowWeights : Scene DynamicConfig OverrideConfig Model.FlowWeightSet where
  kind := dynamicConfigKind
  suffix := ".configurators"
  entries := DynamicConfig.configs
  setEntries configs spec := { spec with configs }
  store := OverrideConfig.stored
  recognises := isFlowWeightConfig
  read := toFlowWeightSet
  generate := fromFlowWeightSet
  newSpec appName := ⟨appName, "application", "v3.0", true, none⟩

/-- `GetAppFlowWeight`. -/
def getAppFlowWeight : String → String → RuleM DynamicConfig (List Model.FlowWeightSet) :=
  flowWeights.getter

/-- `UpInsertAppFlowWeightConfig`, where `detail` is what `GetApplicationDetail` returns: an error,
or whether there are data. -/
def upInsertAppFlowWeightConfig (ctx : Context DynamicConfig) (appName mesh : String)
    (flowWeightSets : List Model.FlowWeightSet) (detail : Except Failure Bool) :
    RuleM DynamicConfig Unit := do
  let found ← ofExcept detail
  if found then flowWeights.upInsert ctx (.ok ()) appName mesh flowWeightSets
  else throw (.err ("[AppNotFound], " ++ appName ++ " does not exist"))

/-! ## Gray environments -/

/-- Whether a tag has the shape of a gray environment. -/
def isGrayTag (tag : Tag) : Bool :=
  if tag.name = "" ∨ tag.addresses.elements.length ≠ 0 then false else true

/-- The set that `GetGrayConfig` reads from a tag. -/
def toGraySet (tag : Tag) : Option Model.GraySet := some ⟨tag.name, toScope tag.cond.elements⟩

/-- The tag of a gray environment, or nothing where a `nil` key is followed. -/
def fromGraySet (set : Model.GraySet) : Option Tag :=
  (fromScope set.scope).map fun paramMatches => ⟨set.envName, none, some paramMatches, true⟩

/-- The gray environments of an application. -/
def grayTags : Scene TagRoute Tag Model.GraySet where
  kind := tagRouteKind
  suffix := ".tag-router"
  entries := TagRoute.tags
  setEntries tags spec := { spec with tags }
  store := Tag.stored
  recognises := isGrayTag
  read := toGraySet
  generate := fromGraySet
  newSpec appName := ⟨0, true, false, appName, "v3.0", false, none⟩

/-- `GetGrayConfig`. -/
def getGrayConfig : String → String → RuleM TagRoute (List Model.GraySet) := grayTags.getter

/-- `UpInsertAppGrayConfig`, where `detail` is the error that `GetApplicationDetail` returns, if
any. -/
def upInsertAppGrayConfig (ctx : Context TagRoute) (appName mesh : String)
    (graySets : List Model.GraySet) (detail : Except Failure Unit) : RuleM TagRoute Unit :=
  grayTags.upInsert ctx detail appName mesh graySets

/-! ## What is read back of a match -/

/-- The conversion sets one field at most. -/
theorem single_stringMatchToModelStringMatch (m : Rules.StringMatch) :
    (stringMatchToModelStringMatch m).Single := by
  unfold stringMatchToModelStringMatch
  split_ifs with hexact hstart hregex hnoempty hempty hwildcard
  · exact .inr ⟨m.exact, hexact, by simp [Model.StringMatch.withText]⟩
  · exact .inr ⟨m.start, hstart, by simp [Model.StringMatch.withText]⟩
  · exact .inr ⟨m.regex, hregex, by simp [Model.StringMatch.withText]⟩
  · exact .inr ⟨m.noempty, hnoempty, by simp [Model.StringMatch.withText]⟩
  · exact .inr ⟨m.empty, hempty, by simp [Model.StringMatch.withText]⟩
  · exact .inr ⟨m.wildcard, hwildcard, by simp [Model.StringMatch.withText]⟩
  · exact .inl rfl

/-- A match is converted back exactly if it has one field at most. -/
theorem stringMatch_converted_iff (m : Model.StringMatch) :
    stringMatchToModelStringMatch (modelStringMatchToStringMatch m) = m ↔ m.Single := by
  constructor
  · intro h
    rw [← h]
    exact single_stringMatchToModelStringMatch _
  · rintro (rfl | ⟨v, hv, hm⟩)
    · rfl
    · simp only [Model.StringMatch.withText, List.mem_cons, List.not_mem_nil, or_false] at hm
      rcases hm with rfl | rfl | rfl | rfl | rfl | rfl <;>
        simp [stringMatchToModelStringMatch, modelStringMatchToStringMatch, hv]

/-- A scope is converted back exactly if each of its matches is, and it is empty if the matches made
of it are. -/
theorem toScope_fromScope {scope : List Model.ParamMatch} {params : List Rules.ParamMatch}
    (h : fromScope scope = some params) :
    (toScope params = scope ↔ ∀ m ∈ scope, ∀ v, m.value = some v → v.Single) ∧
      (params = [] ↔ scope = []) := by
  induction scope generalizing params with
  | nil =>
    obtain rfl : [] = params := Option.some.inj h
    exact ⟨iff_of_true rfl fun m hm => (nomatch hm), iff_of_true rfl rfl⟩
  | cons m scope ih =>
    obtain ⟨key, value⟩ := m
    unfold fromScope at h
    rw [List.mapM_cons] at h
    obtain ⟨param, hparam, h⟩ := Option.bind_eq_some_iff.mp h
    obtain ⟨rest, hrest, h⟩ := Option.bind_eq_some_iff.mp h
    cases h
    obtain ⟨key, rfl, rfl⟩ := Option.map_eq_some_iff.mp hparam
    refine ⟨?_, iff_of_false (List.cons_ne_nil _ _) (List.cons_ne_nil _ _)⟩
    have hvalue : (value.map modelStringMatchToStringMatch).map stringMatchToModelStringMatch =
        value ↔ ∀ v, value = some v → v.Single := by
      cases value with
      | none => exact iff_of_true rfl nofun
      | some v =>
        rw [Option.map_some, Option.map_some, Option.some_inj, stringMatch_converted_iff]
        exact ⟨fun hv v' hv' => Option.some.inj hv' ▸ hv, fun hv => hv v rfl⟩
    rw [List.forall_mem_cons, ← hvalue, ← (ih hrest).1]
    show ((⟨some key, _⟩ : Model.ParamMatch) :: toScope rest) = _ ↔ _
    rw [List.cons_eq_cons, Model.ParamMatch.mk.injEq, and_iff_right rfl]

/-! ## The scenes -/

/-- An empty list becomes `nil` once. -/
theorem nilIfEmpty_nilIfEmpty {α : Type} (l : Slice α) :
    nilIfEmpty (nilIfEmpty l) = nilIfEmpty l := by
  match l with
  | none | some [] | some (_ :: _) => rfl

/-- An empty map becomes `nil` once. -/
theorem nilIfEmptyMap_nilIfEmptyMap (m : Option Json.StringMap) :
    nilIfEmptyMap (nilIfEmptyMap m) = nilIfEmptyMap m := by
  cases m with
  | none => rfl
  | some m =>
    by_cases h : m.items = []
    · simp [nilIfEmptyMap, h]
    · simp [nilIfEmptyMap, h]

/-- A match that was read back is stored as it is. -/
theorem stored_stored_conditionMatch (m : Rules.ConditionMatch) : m.stored.stored = m.stored := by
  obtain ⟨address, providerAddress, service, application, param⟩ := m
  simp only [Rules.ConditionMatch.stored, nilIfEmpty_nilIfEmpty, Option.map_map]
  congr 2 <;>
  · funext l
    simp [Rules.ListStringMatch.stored, nilIfEmpty_nilIfEmpty]

/-- So is an override. -/
theorem stored_stored_overrideConfig (conf : OverrideConfig) :
    conf.stored.stored = conf.stored := by
  unfold OverrideConfig.stored
  simp only [nilIfEmpty_nilIfEmpty, nilIfEmptyMap_nilIfEmptyMap, Option.map_map]
  congr 2
  funext m
  exact stored_stored_conditionMatch m

/-- So is a tag. -/
theorem stored_stored_tag (tag : Tag) : tag.stored.stored = tag.stored := by
  unfold Tag.stored
  simp only [nilIfEmpty_nilIfEmpty]

/-- A map with an entry is not `nil`. -/
theorem nilIfEmptyMap_singleton (k v : String) :
    nilIfEmptyMap (some (Keyed.empty.put (k, v))) = some (Keyed.empty.put (k, v)) := by
  have hitems : (Keyed.empty.put (k, v) : Json.StringMap).items = [(k, v)] :=
    Keyed.items_put_of_absent (Keyed.get?_empty _)
  simp [nilIfEmptyMap, hitems]

/-- The generated override, after it has been stored: it is recognised if the scope is not empty,
and the set is read from it. -/
theorem stored_fromFlowWeightSet {set : Model.FlowWeightSet} {conf : OverrideConfig}
    (h : fromFlowWeightSet set = some conf) :
    ∃ params, fromScope set.scope = some params ∧
      (isFlowWeightConfig conf.stored = true ↔ params ≠ []) ∧
      toFlowWeightSet conf.stored = some ⟨set.weight, toScope params⟩ := by
  obtain ⟨params, hparams, rfl⟩ := Option.map_eq_some_iff.mp h
  have hweight : (Keyed.empty.put ("weight", toString set.weight.toInt) : Json.StringMap).get?
      "weight" = some ("weight", toString set.weight.toInt) := Keyed.get?_put_self _ _
  have hle := set.weight.le_toInt
  have hlt := set.weight.toInt_lt
  have hparse : parseInt64 (toString set.weight.toInt) = some set.weight.toInt :=
    Strings.parseInt64_toString (by omega) (by omega)
  refine ⟨params, hparams, ?_, ?_⟩
  · simp only [isFlowWeightConfig, OverrideConfig.stored, nilIfEmptyMap_singleton, hweight,
      Option.map_some, Rules.ConditionMatch.stored, ne_eq, not_true_eq_false, if_false,
      Option.isSome_some]
    cases params with
    | nil | cons _ _ => simp [nilIfEmpty]
  · simp only [toFlowWeightSet, OverrideConfig.stored, nilIfEmptyMap_singleton, Option.map_some,
      Rules.ConditionMatch.stored, Json.StringMap.value_put_self, hparse, Int32.ofInt_toInt,
      Scene.elements_nilIfEmpty]
    rfl

/-- The generated tag, after it has been stored: it is recognised if the name is not empty, and the
set is read from it. -/
theorem stored_fromGraySet {set : Model.GraySet} {tag : Tag} (h : fromGraySet set = some tag) :
    ∃ params, fromScope set.scope = some params ∧
      (isGrayTag tag.stored = true ↔ set.envName ≠ "") ∧
      toGraySet tag.stored = some ⟨set.envName, toScope params⟩ := by
  obtain ⟨params, hparams, rfl⟩ := Option.map_eq_some_iff.mp h
  refine ⟨params, hparams, ?_, ?_⟩
  · have haddresses : (Slice.elements (nilIfEmpty none) : List String).length = 0 := rfl
    simp [isGrayTag, Tag.stored, haddresses]
  · simp only [toGraySet, Tag.stored, Scene.elements_nilIfEmpty]
    rfl

/-- The scene of flow weights is lawful. -/
theorem lawful_flowWeights : flowWeights.Lawful where
  entries_setEntries _ _ := rfl
  setEntries_setEntries _ _ _ := rfl
  store_store := stored_stored_overrideConfig
  read_generated set conf h _ := by
    obtain ⟨params, -, -, hread⟩ := stored_fromFlowWeightSet h
    show (toFlowWeightSet conf.stored).isSome
    rw [hread]
    rfl

/-- The scene of gray environments is lawful. -/
theorem lawful_grayTags : grayTags.Lawful where
  entries_setEntries _ _ := rfl
  setEntries_setEntries _ _ _ := rfl
  store_store := stored_stored_tag
  read_generated _ _ _ _ := rfl

/-- The scope of a set is read back. -/
def ScopeKept (scope : List Model.ParamMatch) : Prop :=
  ∀ m ∈ scope, ∀ v, m.value = some v → v.Single

/-- A flow weight is read again exactly if it has a scope, which is read back. -/
theorem reread_flowWeights_iff {set : Model.FlowWeightSet} {conf : OverrideConfig}
    (h : fromFlowWeightSet set = some conf) :
    flowWeights.reread set = some set ↔ set.scope ≠ [] ∧ ScopeKept set.scope := by
  obtain ⟨params, hparams, hrec, hread⟩ := stored_fromFlowWeightSet h
  obtain ⟨hscope, hempty⟩ := toScope_fromScope hparams
  have hreread : flowWeights.reread set =
      if isFlowWeightConfig conf.stored then toFlowWeightSet conf.stored else none :=
    Scene.reread_eq h
  rw [hreread, hread, ne_eq, ← hempty, ← ne_eq, ← hrec]
  split_ifs with hr
  · rw [Option.some_inj, and_iff_right hr]
    exact (Model.FlowWeightSet.mk.injEq ..).to_iff.trans ((and_iff_right rfl).trans hscope)
  · exact iff_of_false nofun fun hand => hr hand.1

/-- A gray environment is read again exactly if it has a name, and its scope is read back. -/
theorem reread_grayTags_iff {set : Model.GraySet} {tag : Tag} (h : fromGraySet set = some tag) :
    grayTags.reread set = some set ↔ set.envName ≠ "" ∧ ScopeKept set.scope := by
  obtain ⟨params, hparams, hrec, hread⟩ := stored_fromGraySet h
  obtain ⟨hscope, -⟩ := toScope_fromScope hparams
  have hreread : grayTags.reread set =
      if isGrayTag tag.stored then toGraySet tag.stored else none := Scene.reread_eq h
  rw [hreread, hread, ← hrec]
  split_ifs with hr
  · rw [Option.some_inj, and_iff_right hr]
    exact (Model.GraySet.mk.injEq ..).to_iff.trans ((and_iff_right rfl).trans hscope)
  · exact iff_of_false nofun fun hand => hr hand.1

/-- What is read back of a rule is what decoding its encoding gives. -/
theorem stored_eq_decode :
    (∀ spec, Rules.dynamicConfigType.decode (Rules.dynamicConfigType.encode spec)
      Rules.dynamicConfigType.zero = ⟨flowWeights.stored spec, true⟩) ∧
    (∀ spec, Rules.tagRouteType.decode (Rules.tagRouteType.encode spec)
      Rules.tagRouteType.zero = ⟨grayTags.stored spec, true⟩) :=
  ⟨Rules.lawful_dynamicConfigType.1, Rules.lawful_tagRouteType.1⟩

/-! ## Put-get -/

section PutGet

variable {S : Type} {st : LedgerStore S}

/-- The call that sets flow weights does what the update of the scene does. -/
theorem ensuresOk_upInsertAppFlowWeightConfig (ctx : Context DynamicConfig) (appName mesh : String)
    (sets : List Model.FlowWeightSet) (detail : Except Failure Bool)
    (s : RuleState DynamicConfig S) :
    EnsuresOk (ReadSem flowWeights.readBack st)
      (fun _ s' => flowWeights.Leaves appName mesh sets s s')
      (upInsertAppFlowWeightConfig ctx appName mesh sets detail) s := by
  cases detail with
  | error e => exact EnsuresOk.throw e
  | ok found =>
    cases found with
    | false => exact EnsuresOk.throw _
    | true => exact Scene.ensuresOk_upInsert ctx (.ok ())

/-- Where an update has returned `nil`, each set has an entry. -/
theorem generate_of_leaves {σ E T : Type} {x : Scene σ E T} {appName mesh : String}
    {sets : List T} {s s' : RuleState σ S} (h : x.Leaves appName mesh sets s s') :
    ∀ t ∈ sets, ∃ e, x.generate t = some e := by
  obtain ⟨new, -, hnew, -⟩ := h
  induction sets generalizing new with
  | nil => exact fun t ht => nomatch ht
  | cons t sets ih =>
    obtain ⟨e, rest, he, hrest, -⟩ := Scene.mapM_cons_eq_some hnew
    rw [List.forall_mem_cons]
    exact ⟨⟨e, he⟩, ih rest hrest⟩

/-- Flow weights and gray environments obey put-get, with the rule stored as JSON, keep the entries
of other origin and may be set again, in every call that returns `nil`: exactly if each flow weight
has a scope, each gray environment has a name, and each string match has at most one field, which is
not empty. -/
theorem appSettings_putGet_iff (st : LedgerStore S) (appName mesh : String) :
    (∀ (ctx : Context DynamicConfig) sets detail s s',
      (upInsertAppFlowWeightConfig ctx appName mesh sets detail).run.Runs
        (ReadSem flowWeights.readBack st) s (.ok ()) s' →
      (flowWeights.PutGet st (getAppFlowWeight appName mesh)
        (upInsertAppFlowWeightConfig ctx appName mesh sets) appName mesh sets s s' ↔
          ∀ set ∈ sets, set.scope ≠ [] ∧ ScopeKept set.scope)) ∧
    (∀ (ctx : Context TagRoute) sets detail s s',
      (upInsertAppGrayConfig ctx appName mesh sets detail).run.Runs
        (ReadSem grayTags.readBack st) s (.ok ()) s' →
      (grayTags.PutGet st (getGrayConfig appName mesh)
        (upInsertAppGrayConfig ctx appName mesh sets) appName mesh sets s s' ↔
          ∀ set ∈ sets, set.envName ≠ "" ∧ ScopeKept set.scope)) := by
  constructor
  · intro ctx sets detail s s' hruns
    have hensures : ∀ detail (s : RuleState DynamicConfig S),
        EnsuresOk (ReadSem flowWeights.readBack st)
          (fun _ s' => flowWeights.Leaves appName mesh sets s s')
          (upInsertAppFlowWeightConfig ctx appName mesh sets detail) s :=
      ensuresOk_upInsertAppFlowWeightConfig ctx appName mesh sets
    refine (Scene.putGet_iff lawful_flowWeights hensures hruns).trans ?_
    have hgenerated := generate_of_leaves ((hensures detail s).of_runs hruns)
    refine forall₂_congr fun set hset => ?_
    obtain ⟨conf, hconf⟩ := hgenerated set hset
    exact reread_flowWeights_iff hconf
  · intro ctx sets detail s s' hruns
    have hensures : ∀ detail (s : RuleState TagRoute S), EnsuresOk (ReadSem grayTags.readBack st)
        (fun _ s' => grayTags.Leaves appName mesh sets s s')
        (upInsertAppGrayConfig ctx appName mesh sets detail) s :=
      fun detail s => Scene.ensuresOk_upInsert ctx detail
    refine (Scene.putGet_iff lawful_grayTags hensures hruns).trans ?_
    have hgenerated := generate_of_leaves ((hensures detail s).of_runs hruns)
    refine forall₂_congr fun set hset => ?_
    obtain ⟨tag, htag⟩ := hgenerated set hset
    exact reread_grayTags_iff htag

end PutGet

/-! ## Sample calls -/

/-- No version and no rule. -/
def noRules (σ : Type) : MemoryState σ := ⟨Memory.init ruleVersionIndexers, Keyed.empty⟩

/-- A scope with one match. -/
def sampleScope : List Model.ParamMatch := [⟨some "env", some { exact := some "gray" }⟩]

/-- The scope is read back. -/
theorem scopeKept_sampleScope : ScopeKept sampleScope := by
  intro m hm v hv
  obtain rfl := List.mem_singleton.mp hm
  cases hv
  exact .inr ⟨"gray", by decide, by decide⟩

/-- A flow weight with a scope and a gray environment with a name are set. -/
theorem appSettings_putGet_sample :
    (∃ s', flowWeights.PutGet memoryLedgerStore (getAppFlowWeight "shop" "mesh")
      (upInsertAppFlowWeightConfig (plainContext _) "shop" "mesh" [⟨50, sampleScope⟩])
      "shop" "mesh" [⟨50, sampleScope⟩] (noRules _) s') ∧
    (∃ s', grayTags.PutGet memoryLedgerStore (getGrayConfig "shop" "mesh")
      (upInsertAppGrayConfig (plainContext _) "shop" "mesh" [⟨"gray", sampleScope⟩])
      "shop" "mesh" [⟨"gray", sampleScope⟩] (noRules _) s') := by
  have hflow := runs_of_toBool flowWeights.readBack memoryLedgerStore (noRules _)
    (upInsertAppFlowWeightConfig (plainContext _) "shop" "mesh" [⟨50, sampleScope⟩] (.ok true))
    (by decide +kernel)
  have hgray := runs_of_toBool grayTags.readBack memoryLedgerStore (noRules _)
    (upInsertAppGrayConfig (plainContext _) "shop" "mesh" [⟨"gray", sampleScope⟩] (.ok ()))
    (by decide +kernel)
  refine ⟨⟨_, ((appSettings_putGet_iff _ _ _).1 _ _ _ _ _ hflow).mpr fun set hset => ?_⟩,
    ⟨_, ((appSettings_putGet_iff _ _ _).2 _ _ _ _ _ hgray).mpr fun set hset => ?_⟩⟩
  · obtain rfl := List.mem_singleton.mp hset
    exact ⟨by decide, scopeKept_sampleScope⟩
  · obtain rfl := List.mem_singleton.mp hset
    exact ⟨by decide, scopeKept_sampleScope⟩

/-- A flow weight without a scope, and a gray environment without a name: the calls return `nil`,
and the getters return nothing. -/
theorem appSettings_lost :
    (∃ s', (upInsertAppFlowWeightConfig (plainContext _) "shop" "mesh" [⟨50, []⟩]
        (.ok true)).run.Runs (ReadSem flowWeights.readBack memoryLedgerStore) (noRules _)
        (.ok ()) s' ∧
      flowWeights.returns memoryLedgerStore (getAppFlowWeight "shop" "mesh") s' = .ok []) ∧
    (∃ s', (upInsertAppGrayConfig (plainContext _) "shop" "mesh" [⟨"", sampleScope⟩]
        (.ok ())).run.Runs (ReadSem grayTags.readBack memoryLedgerStore) (noRules _) (.ok ()) s' ∧
      grayTags.returns memoryLedgerStore (getGrayConfig "shop" "mesh") s' = .ok []) :=
  ⟨⟨_, runs_of_toBool _ _ _ _ (by decide +kernel), by decide +kernel⟩,
    ⟨_, runs_of_toBool _ _ _ _ (by decide +kernel), by decide +kernel⟩⟩

end DubboAdmin.Console
