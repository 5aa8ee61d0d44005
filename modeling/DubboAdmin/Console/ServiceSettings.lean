import DubboAdmin.Console.RuleEffects
import DubboAdmin.Rules.Specs

/-!
# Timeout and retries of a service

The settings of a service that the console keeps in its configurator
(`pkg/console/service/service.go`): `UpInsertServiceConfigTimeoutConfig` and
`UpInsertServiceRetryConfig`, with their getters. A setting is a parameter of the overrides of one
side. The loop of a getter stops at the first override that sets no value and returns the last value
before it (`ParameterSetting.lastRead`), while an update changes the first override that sets one,
wherever it is.

`settings_putGet_iff` says when a setting obeys put-get and leaves everything else alone.
-/

namespace DubboAdmin.Console

open Versioning
open Rules (Slice OverrideConfig DynamicConfig)
open Prog (EnsuresOk)
open Strings (parseInt64)

/-! ## Requests and rules -/

/-- The service of a request. -/
structure BaseServiceReq where
  serviceName : String
  group : String
  version : String
  mesh : String

def BaseServiceReq.serviceKey (req : BaseServiceReq) : String :=
  req.serviceName ++ ":" ++ req.version ++ ":" ++ req.group

/-- The name of the configurator of a service. -/
def BaseServiceReq.serviceConfiguratorName (req : BaseServiceReq) : String :=
  req.serviceKey ++ ".configurators"

/-- The spec of a rule, where there is a rule and its spec is not `nil`. -/
def specOf {σ : Type} (res : Option (Rule σ)) : Option σ := res.bind Resource.spec

section Configurators

variable (ctx : Context DynamicConfig)

def getConfigurator (name mesh : String) :
    RuleM DynamicConfig (Option (Rule DynamicConfig)) :=
  resourceManagerGetByKey dynamicConfigKind (buildResourceKey mesh name)

def updateConfigurator (res : Rule DynamicConfig) : RuleM DynamicConfig Unit :=
  updateRule ctx res ""

def createConfigurator (res : Rule DynamicConfig) : RuleM DynamicConfig Unit :=
  createRule ctx res ""

end Configurators

/-! ## Settings that are parameters of overrides -/

/-- A setting of a service: the side of its overrides, its parameter, and its default. -/
structure ParameterSetting where
  side : String
  parameter : String
  default : Int32

/-- The timeout, of the provider: `ServiceDefaultTimeout`. -/
def serviceTimeout : ParameterSetting := ⟨"provider", "timeout", 1000⟩

/-- The retries, of the consumer: `ServiceDefaultRetries`. -/
def serviceRetries : ParameterSetting := ⟨"consumer", "retries", 2⟩

namespace ParameterSetting

variable (x : ParameterSetting)

/-- The number in the parameter of an override, where it is an override of the setting:
`strconv.Atoi`. -/
def number (conf : OverrideConfig) : Option ℤ :=
  match conf.parameters with
  | none => none
  | some parameters =>
    if conf.side = x.side ∧ parameters.value x.parameter ≠ "" then
      parseInt64 (parameters.value x.parameter)
    else none

/-- The value that an override sets: its number as an `int32`. -/
def read (conf : OverrideConfig) : Option Int32 := (x.number conf).map Int32.ofInt

/-- The override, with the value as its parameter. -/
def set (v : Int32) (conf : OverrideConfig) : OverrideConfig :=
  { conf with parameters := conf.parameters.map (·.put (x.parameter, toString v.toInt)) }

/-- A new override that sets the value. -/
def override (v : Int32) : OverrideConfig where
  side := x.side
  addresses := none
  providerAddresses := none
  parameters := some (Keyed.empty.put (x.parameter, toString v.toInt))
  applications := none
  services := none
  type := ""
  enabled := false
  cond := none
  xGenerateByCp := true

/-- The loop of a getter, with the value so far: `ForEachWithBreak` stops at the first override that
sets no value. -/
def lastRead (value : Int32) : List OverrideConfig → Int32
  | [] => value
  | conf :: rest =>
    match x.read conf with
    | none => value
    | some t => lastRead t rest

/-- The value of a setting. -/
def value : Option DynamicConfig → Int32
  | none => x.default
  | some spec => x.lastRead x.default spec.configs.elements

/-- A new configurator that sets the value. -/
def newConfigurator (req : BaseServiceReq) (v : Int32) : Rule DynamicConfig where
  kind := dynamicConfigKind
  mesh := req.mesh
  name := req.serviceConfiguratorName
  spec := some {
    key := req.serviceName
    scope := "service"
    configVersion := "v3.0"
    enabled := true
    configs := some [x.override v] }

/-- The getter of a setting. -/
def getter (req : BaseServiceReq) : RuleM DynamicConfig Int32 := do
  let res ← getConfigurator req.serviceConfiguratorName req.mesh
  pure (x.value (specOf res))

end ParameterSetting

def getServiceTimeout : OverrideConfig → Option Int32 := serviceTimeout.read

def getServiceRetryTimes : OverrideConfig → Option Int32 := serviceRetries.read

def getServiceTimeoutConfig : BaseServiceReq → RuleM DynamicConfig Int32 := serviceTimeout.getter

def getServiceRetryConfig : BaseServiceReq → RuleM DynamicConfig Int32 := serviceRetries.getter

/-- The configurator with other overrides. -/
def withConfigs (res : Rule DynamicConfig) (spec : DynamicConfig) (configs : List OverrideConfig) :
    Rule DynamicConfig :=
  { res with spec := some { spec with configs := some configs } }

/-- The overrides that `UpInsertServiceConfigTimeoutConfig` writes for a configurator that exists,
where it writes. -/
def timeoutConfigs (timeout : Int32) : List OverrideConfig → Option (List OverrideConfig)
  | [] => some [serviceTimeout.override timeout]
  | conf :: rest =>
    match getServiceTimeout conf with
    | none => (timeoutConfigs timeout rest).map (conf :: ·)
    | some oldTimeout =>
      if oldTimeout = timeout then none else some (serviceTimeout.set timeout conf :: rest)

def upInsertServiceConfigTimeoutConfig (ctx : Context DynamicConfig) (req : BaseServiceReq)
    (timeout : Int32) : RuleM DynamicConfig Unit := do
  match ← getConfigurator req.serviceConfiguratorName req.mesh with
  | some ⟨kind, mesh, name, some spec⟩ =>
    match timeoutConfigs timeout spec.configs.elements with
    | none => pure ()
    | some configs =>
      updateConfigurator ctx (withConfigs ⟨kind, mesh, name, some spec⟩ spec configs)
  | _ =>
    if timeout = serviceTimeout.default then pure ()
    else createConfigurator ctx (serviceTimeout.newConfigurator req timeout)

/-- The loop of `UpInsertServiceRetryConfig` over the overrides: it gives those that it leaves, or
nothing where the function has returned. -/
def retryLoop (ctx : Context DynamicConfig) (res : Rule DynamicConfig) (spec : DynamicConfig)
    (retries : Int32) (passed : List OverrideConfig) :
    List OverrideConfig → RuleM DynamicConfig (Option (List OverrideConfig))
  | [] => pure (some passed)
  | conf :: rest =>
    match getServiceRetryTimes conf with
    | none => retryLoop ctx res spec retries (passed ++ [conf]) rest
    | some retryTimes =>
      if retryTimes = retries then pure none
      else do
        updateConfigurator ctx
          (withConfigs res spec (passed ++ serviceRetries.set retries conf :: rest))
        -- There is no return here: the loop goes on.
        retryLoop ctx res spec retries (passed ++ [serviceRetries.set retries conf]) rest

def upInsertServiceRetryConfig (ctx : Context DynamicConfig) (req : BaseServiceReq)
    (retries : Int32) : RuleM DynamicConfig Unit := do
  match ← getConfigurator req.serviceConfiguratorName req.mesh with
  | some ⟨kind, mesh, name, some spec⟩ => do
    match ← retryLoop ctx ⟨kind, mesh, name, some spec⟩ spec retries [] spec.configs.elements with
    | none => pure ()
    | some configs =>
      if retries = serviceRetries.default then pure ()
      else updateConfigurator ctx (withConfigs ⟨kind, mesh, name, some spec⟩ spec
        (configs ++ [serviceRetries.override retries]))
  | _ =>
    if retries = serviceRetries.default then pure ()
    else createConfigurator ctx (serviceRetries.newConfigurator req retries)

/-! ## Put-get -/

/-- Two overrides differ at most in the parameter of the setting. -/
def ParameterSetting.SameButParameter (x : ParameterSetting) (conf conf' : OverrideConfig) : Prop :=
  { conf' with parameters := conf.parameters } = conf ∧
    ∀ k, k ≠ x.parameter →
      conf'.parameters.map (·.value k) = conf.parameters.map (·.value k)

/-- Of the overrides before, the first one of the setting may have another value for its parameter,
and all others are as they were. -/
def ParameterSetting.Kept (x : ParameterSetting) : List OverrideConfig → List OverrideConfig → Prop
  | [], _ => True
  | _ :: _, [] => False
  | conf :: rest, conf' :: rest' =>
    if (x.read conf).isSome then x.SameButParameter conf conf' ∧ rest <+: rest'
    else conf' = conf ∧ x.Kept rest rest'

/-- Put-get of a setting on the overrides before and after, but for what its getter returns. -/
structure ParameterSetting.PutGet (x : ParameterSetting) (v : Int32)
    (configs configs' : List OverrideConfig) : Prop where
  /-- The number in the first override of the setting is the value, also without narrowing. -/
  exact : ∀ n, configs'.findSome? x.number = some n → n = v.toInt
  /-- All other parameters and overrides are as they were. -/
  kept : x.Kept configs configs'
  /-- There are more overrides only if there was none of the setting. -/
  grows : configs.length < configs'.length → ∀ conf ∈ configs, x.read conf = none

section States

variable {S : Type}

/-- The spec of the configurator of the service. -/
def configuratorAt (req : BaseServiceReq) (s : RuleState DynamicConfig S) : Option DynamicConfig :=
  specOf (s.live.get? (dynamicConfigKind, buildResourceKey req.mesh req.serviceConfiguratorName))

/-- The overrides of the service. -/
def configsAt (req : BaseServiceReq) (s : RuleState DynamicConfig S) : List OverrideConfig :=
  match configuratorAt req s with
  | none => []
  | some spec => spec.configs.elements

/-- What a getter returns, where nothing fails. -/
def returns (getter : BaseServiceReq → RuleM DynamicConfig Int32) (st : LedgerStore S)
    (req : BaseServiceReq) (s : RuleState DynamicConfig S) : Except Failure Int32 :=
  (Prog.exec (readStep id st) (getter req).run s).1

/-- A call that sets the value of `x` has done so, and changed nothing else, as seen by the getters
of `x` and of the other setting. -/
structure SettingPutGet (x : ParameterSetting)
    (getter otherGetter : BaseServiceReq → RuleM DynamicConfig Int32) (st : LedgerStore S)
    (req : BaseServiceReq) (v : Int32) (s s' : RuleState DynamicConfig S) : Prop where
  get : returns getter st req s' = .ok v
  configs : x.PutGet v (configsAt req s) (configsAt req s')
  fields : ∀ spec, configuratorAt req s = some spec →
    ∃ configs, configuratorAt req s' = some { spec with configs }
  /-- The getter of the other setting returns what it has returned. -/
  other : returns otherGetter st req s' = returns otherGetter st req s

end States

/-- The getter returns the value once it is set over these overrides: there are none; or the first
one sets a value, and those that follow it, up to one that sets none, end with the value; or the
getter does not get past the first one and the value is the default. -/
def ParameterSetting.Readable (x : ParameterSetting) (v : Int32) : List OverrideConfig → Prop
  | [] => True
  | conf :: rest => if (x.read conf).isSome then x.lastRead v rest = v else v = x.default

/-- The timeout can be set over overrides with these numbers: the first one does not narrow to it
without being it. -/
def TimeoutSettable (v : Int32) : List ℤ → Prop
  | [] => True
  | n :: _ => Int32.ofInt n = v → n = v.toInt

/-- The loop of the retries leaves overrides with these numbers, and none is added: the first one
narrows to the value, or there is none and the value is the default. -/
def RetriesLeft (v : Int32) : List ℤ → Prop
  | [] => v = serviceRetries.default
  | n :: _ => Int32.ofInt n = v

/-- The retries can be set over overrides with these numbers: there is none, or the first one is the
value already, or only the first one is changed and none is added. -/
def RetriesSettable (v : Int32) : List ℤ → Prop
  | [] => True
  | n :: rest => if Int32.ofInt n = v then n = v.toInt else RetriesLeft v rest

/-! ## Overrides -/

theorem parseInt64_itoa (v : Int32) : parseInt64 (toString v.toInt) = some v.toInt := by
  have hle := v.le_toInt
  have hlt := v.toInt_lt
  exact Strings.parseInt64_toString (by omega) (by omega)

theorem itoa_ne_empty (v : Int32) : toString v.toInt ≠ "" := by
  intro hempty
  have hparse := parseInt64_itoa v
  have hnone : parseInt64 "" = none := by decide
  rw [hempty, hnone] at hparse
  cases hparse

namespace ParameterSetting

variable {x y : ParameterSetting} {v : Int32} {conf : OverrideConfig} {n : ℤ}
  {rest rest' : List OverrideConfig}

theorem read_of_number (h : x.number conf = some n) : x.read conf = some (Int32.ofInt n) := by
  unfold read
  rw [h]
  rfl

theorem read_eq_none (h : x.number conf = none) : x.read conf = none := by
  unfold read
  rw [h]
  rfl

theorem side_of_number (h : x.number conf = some n) :
    conf.side = x.side ∧ ∃ parameters, conf.parameters = some parameters := by
  unfold number at h
  cases hparameters : conf.parameters with
  | none =>
    rw [hparameters] at h
    cases h
  | some parameters =>
    rw [hparameters] at h
    dsimp only at h
    split_ifs at h with hside
    exact ⟨hside.1, parameters, rfl⟩

theorem lastRead_cons_of_none (value : Int32) (h : x.number conf = none) :
    x.lastRead value (conf :: rest) = value := by
  rw [lastRead, read_eq_none h]

theorem lastRead_cons_of_some (value : Int32) (h : x.number conf = some n) :
    x.lastRead value (conf :: rest) = x.lastRead (Int32.ofInt n) rest := by
  rw [lastRead, read_of_number h]

theorem readable_cons_of_none (h : x.number conf = none) :
    x.Readable v (conf :: rest) ↔ v = x.default := by
  rw [Readable, read_eq_none h]
  exact Iff.rfl

theorem readable_cons_of_some (h : x.number conf = some n) :
    x.Readable v (conf :: rest) ↔ x.lastRead v rest = v := by
  rw [Readable, read_of_number h]
  exact Iff.rfl

theorem number_set (h : x.number conf = some n) : x.number (x.set v conf) = some v.toInt := by
  obtain ⟨hside, parameters, hparameters⟩ := side_of_number h
  unfold number set
  rw [hparameters]
  dsimp only [Option.map_some]
  rw [Json.StringMap.value_put_self, if_pos ⟨hside, itoa_ne_empty v⟩]
  exact parseInt64_itoa v

theorem number_override : x.number (x.override v) = some v.toInt := by
  unfold number override
  dsimp only
  rw [Json.StringMap.value_put_self, if_pos ⟨rfl, itoa_ne_empty v⟩]
  exact parseInt64_itoa v

theorem number_eq_none_of_side (h : conf.side ≠ y.side) : y.number conf = none := by
  unfold number
  split
  · rfl
  · rw [if_neg fun hand => h hand.1]

theorem sameButParameter_set (v : Int32) (conf : OverrideConfig) :
    x.SameButParameter conf (x.set v conf) := by
  refine ⟨rfl, fun k hk => ?_⟩
  show (conf.parameters.map _).map _ = _
  rw [Option.map_map]
  congr 1
  funext parameters
  exact Json.StringMap.value_put_ne parameters _ hk

theorem sameButParameter_refl (conf : OverrideConfig) : x.SameButParameter conf conf :=
  ⟨rfl, fun _ _ => rfl⟩

theorem set_ne (h : x.number conf = some n) (hne : Int32.ofInt n ≠ v) : x.set v conf ≠ conf := by
  intro heq
  have hset := number_set (v := v) h
  rw [heq, h] at hset
  cases hset
  exact hne (Int32.ofInt_toInt v)

/-! ## Put-get over a list of overrides -/

theorem kept_cons_of_none (h : x.number conf = none) :
    x.Kept (conf :: rest) (conf :: rest') ↔ x.Kept rest rest' := by
  have hnot : ¬ (x.read conf).isSome := by
    rw [read_eq_none h]
    exact Bool.false_ne_true
  show (if (x.read conf).isSome then _ else _) ↔ _
  rw [if_neg hnot]
  exact and_iff_right rfl

theorem kept_cons_of_some (h : x.number conf = some n) (conf' : OverrideConfig) :
    x.Kept (conf :: rest) (conf' :: rest') ↔ x.SameButParameter conf conf' ∧ rest <+: rest' := by
  have hsome : (x.read conf).isSome := by
    rw [read_of_number h]
    rfl
  show (if (x.read conf).isSome then _ else _) ↔ _
  rw [if_pos hsome]

/-- An override that is none of the setting does not matter. -/
theorem putGet_cons_iff (h : x.number conf = none) :
    x.PutGet v (conf :: rest) (conf :: rest') ↔ x.PutGet v rest rest' := by
  have hnumber : (conf :: rest').findSome? x.number = rest'.findSome? x.number :=
    List.findSome?_cons_of_isNone (by rw [h]; rfl)
  constructor
  · intro hput
    have hexact := hput.exact
    rw [hnumber] at hexact
    exact ⟨hexact, (kept_cons_of_none h).mp hput.kept, fun hlt conf' hconf' =>
      hput.grows (Nat.succ_lt_succ hlt) conf' (List.mem_cons_of_mem _ hconf')⟩
  · intro hput
    have hexact := hput.exact
    rw [← hnumber] at hexact
    refine ⟨hexact, (kept_cons_of_none h).mpr hput.kept, fun hlt conf' hconf' => ?_⟩
    rcases List.mem_cons.mp hconf' with rfl | hconf'
    · exact read_eq_none h
    · exact hput.grows (Nat.lt_of_succ_lt_succ hlt) conf' hconf'

/-- The first override of the setting is left: its number has to be the value. -/
theorem putGet_left_iff (h : x.number conf = some n) :
    x.PutGet v (conf :: rest) (conf :: rest) ↔ n = v.toInt := by
  have hnumber : (conf :: rest).findSome? x.number = some n := by
    rw [List.findSome?_cons, h]
  constructor
  · exact fun hput => hput.exact n hnumber
  · intro heq
    refine ⟨fun m hm => ?_, ?_, fun hlt => absurd hlt (lt_irrefl _)⟩
    · rw [hnumber] at hm
      exact (Option.some.inj hm).symm.trans heq
    · exact (kept_cons_of_some h conf).mpr ⟨sameButParameter_refl conf, List.prefix_rfl⟩

/-- The first override of the setting is set: no other override may change. -/
theorem putGet_set_iff (h : x.number conf = some n) :
    x.PutGet v (conf :: rest) (x.set v conf :: rest') ↔ rest' = rest := by
  have hset := number_set (v := v) h
  constructor
  · intro hput
    have hkept := (kept_cons_of_some h _).mp hput.kept
    have hlength : ¬ rest.length < rest'.length := by
      intro hlt
      have hnone := hput.grows (Nat.succ_lt_succ hlt) conf List.mem_cons_self
      rw [read_of_number h] at hnone
      cases hnone
    have hle := hkept.2.length_le
    exact (hkept.2.eq_of_length (by omega)).symm
  · rintro rfl
    refine ⟨fun m hm => ?_, ?_, fun hlt => absurd hlt (lt_irrefl _)⟩
    · rw [List.findSome?_cons, hset] at hm
      exact (Option.some.inj hm).symm
    · exact (kept_cons_of_some h _).mpr ⟨sameButParameter_set v conf, List.prefix_rfl⟩

theorem putGet_override : x.PutGet v [] [x.override v] := by
  refine ⟨fun m hm => ?_, trivial, fun _ conf hconf => nomatch hconf⟩
  rw [List.findSome?_cons, number_override] at hm
  exact (Option.some.inj hm).symm

theorem putGet_nil : x.PutGet v [] [] :=
  ⟨nofun, trivial, fun hlt => absurd hlt (lt_irrefl _)⟩

theorem lastRead_override (value : Int32) : x.lastRead value [x.override v] = v := by
  rw [lastRead_cons_of_some value number_override]
  exact Int32.ofInt_toInt v

theorem lastRead_set (value : Int32) (h : x.number conf = some n) :
    x.lastRead value (x.set v conf :: rest) = x.lastRead v rest := by
  rw [lastRead_cons_of_some value (number_set h), Int32.ofInt_toInt]

end ParameterSetting

/-! ## The overrides after a call -/

/-- The overrides that `UpInsertServiceRetryConfig` leaves in a configurator that exists. -/
def retryConfigs (retries : Int32) : List OverrideConfig → List OverrideConfig
  | [] => if retries = serviceRetries.default then [] else [serviceRetries.override retries]
  | conf :: rest =>
    match getServiceRetryTimes conf with
    | none => conf :: retryConfigs retries rest
    | some retryTimes =>
      if retryTimes = retries then conf :: rest
      else serviceRetries.set retries conf :: retryConfigs retries rest

open ParameterSetting

section Lists

variable (v : Int32) {conf : OverrideConfig} {n : ℤ} (rest : List OverrideConfig)

theorem timeoutConfigs_cons_of_none (h : serviceTimeout.number conf = none) :
    (timeoutConfigs v (conf :: rest)).getD (conf :: rest) =
      conf :: (timeoutConfigs v rest).getD rest := by
  have hread : getServiceTimeout conf = none := read_eq_none h
  rw [timeoutConfigs, hread]
  cases timeoutConfigs v rest with
  | none => rfl
  | some configs => rfl

theorem timeoutConfigs_cons_of_some (h : serviceTimeout.number conf = some n) :
    timeoutConfigs v (conf :: rest) =
      if Int32.ofInt n = v then none else some (serviceTimeout.set v conf :: rest) := by
  have hread : getServiceTimeout conf = some (Int32.ofInt n) := read_of_number h
  rw [timeoutConfigs, hread]

theorem retryConfigs_cons_of_none (h : serviceRetries.number conf = none) :
    retryConfigs v (conf :: rest) = conf :: retryConfigs v rest := by
  have hread : getServiceRetryTimes conf = none := read_eq_none h
  rw [retryConfigs, hread]

theorem retryConfigs_cons_of_some (h : serviceRetries.number conf = some n) :
    retryConfigs v (conf :: rest) =
      if Int32.ofInt n = v then conf :: rest
      else serviceRetries.set v conf :: retryConfigs v rest := by
  have hread : getServiceRetryTimes conf = some (Int32.ofInt n) :=
    read_of_number h
  rw [retryConfigs, hread]

/-- When the timeout is set over the overrides. -/
theorem putGet_timeoutConfigs_iff (configs : List OverrideConfig) :
    serviceTimeout.PutGet v configs ((timeoutConfigs v configs).getD configs) ↔
      TimeoutSettable v (configs.filterMap serviceTimeout.number) := by
  induction configs with
  | nil => exact iff_of_true putGet_override trivial
  | cons conf rest ih =>
    cases h : serviceTimeout.number conf with
    | none =>
      rw [timeoutConfigs_cons_of_none v rest h, putGet_cons_iff h,
        List.filterMap_cons_none h, ih]
    | some n =>
      rw [List.filterMap_cons_some h, timeoutConfigs_cons_of_some v rest h]
      show _ ↔ (Int32.ofInt n = v → n = v.toInt)
      by_cases hn : Int32.ofInt n = v
      · rw [if_pos hn]
        exact (putGet_left_iff h).trans ⟨fun heq _ => heq, fun hto => hto hn⟩
      · rw [if_neg hn]
        exact iff_of_true ((putGet_set_iff h).mpr rfl) fun heq => absurd heq hn

/-- When the loop and what follows it leave the overrides that they come to. -/
theorem retryConfigs_eq_self_iff (configs : List OverrideConfig) :
    retryConfigs v configs = configs ↔
      RetriesLeft v (configs.filterMap serviceRetries.number) := by
  induction configs with
  | nil =>
    show (if v = serviceRetries.default then [] else _) = [] ↔ v = serviceRetries.default
    by_cases hv : v = serviceRetries.default
    · rw [if_pos hv]
      exact iff_of_true rfl hv
    · rw [if_neg hv]
      exact iff_of_false (List.cons_ne_nil _ _) hv
  | cons conf rest ih =>
    cases h : serviceRetries.number conf with
    | none =>
      rw [retryConfigs_cons_of_none v rest h, List.filterMap_cons_none h, List.cons_inj_right, ih]
    | some m =>
      rw [retryConfigs_cons_of_some v rest h, List.filterMap_cons_some h]
      show _ ↔ Int32.ofInt m = v
      split_ifs with hm
      · exact iff_of_true rfl hm
      · refine iff_of_false (fun heq => ?_) hm
        exact set_ne h hm (List.cons.inj heq).1

/-- When the retries are set over the overrides. -/
theorem putGet_retryConfigs_iff (configs : List OverrideConfig) :
    serviceRetries.PutGet v configs (retryConfigs v configs) ↔
      RetriesSettable v (configs.filterMap serviceRetries.number) := by
  induction configs with
  | nil =>
    refine iff_of_true ?_ trivial
    show serviceRetries.PutGet v [] (if v = serviceRetries.default then _ else _)
    split_ifs
    · exact putGet_nil
    · exact putGet_override
  | cons conf rest ih =>
    cases h : serviceRetries.number conf with
    | none =>
      rw [retryConfigs_cons_of_none v rest h, putGet_cons_iff h,
        List.filterMap_cons_none h, ih]
    | some n =>
      rw [List.filterMap_cons_some h, retryConfigs_cons_of_some v rest h]
      show _ ↔ if Int32.ofInt n = v then n = v.toInt else RetriesLeft v _
      split_ifs with hn
      · exact putGet_left_iff h
      · exact (putGet_set_iff h).trans (retryConfigs_eq_self_iff v rest)

/-! What the getters return after a call. -/

/-- When the getter returns the timeout that was set. -/
theorem lastRead_timeoutConfigs_iff (configs : List OverrideConfig) :
    serviceTimeout.lastRead serviceTimeout.default ((timeoutConfigs v configs).getD configs) = v ↔
      serviceTimeout.Readable v configs := by
  cases configs with
  | nil => exact iff_of_true (lastRead_override _) trivial
  | cons conf rest =>
    cases h : serviceTimeout.number conf with
    | none =>
      rw [timeoutConfigs_cons_of_none v rest h, lastRead_cons_of_none _ h,
        readable_cons_of_none h, eq_comm]
    | some n =>
      rw [timeoutConfigs_cons_of_some v rest h, readable_cons_of_some h]
      split_ifs with hn
      · rw [Option.getD_none, lastRead_cons_of_some _ h, hn]
      · rw [Option.getD_some, lastRead_set _ h]

/-- When the getter returns the retries that were set. -/
theorem lastRead_retryConfigs_iff {configs : List OverrideConfig}
    (hsettable : RetriesSettable v (configs.filterMap serviceRetries.number)) :
    serviceRetries.lastRead serviceRetries.default (retryConfigs v configs) = v ↔
      serviceRetries.Readable v configs := by
  cases configs with
  | nil =>
    refine iff_of_true ?_ trivial
    unfold retryConfigs
    split_ifs with hv
    · exact hv.symm
    · exact lastRead_override _
  | cons conf rest =>
    cases h : serviceRetries.number conf with
    | none =>
      rw [retryConfigs_cons_of_none v rest h, lastRead_cons_of_none _ h,
        readable_cons_of_none h, eq_comm]
    | some n =>
      rw [List.filterMap_cons_some h] at hsettable
      rw [retryConfigs_cons_of_some v rest h, readable_cons_of_some h]
      by_cases hn : Int32.ofInt n = v
      · rw [if_pos hn, lastRead_cons_of_some _ h, hn]
      · have hleft : RetriesLeft v (rest.filterMap serviceRetries.number) := by
          simpa only [RetriesSettable, if_neg hn] using hsettable
        rw [if_neg hn, lastRead_set _ h,
          (retryConfigs_eq_self_iff v rest).mpr hleft]

/-- The getter of another setting stops at an override that sets one of the other side. -/
theorem lastRead_of_side {other : ParameterSetting} (value : Int32) (h : conf.side ≠ other.side) :
    other.lastRead value (conf :: rest) = value :=
  lastRead_cons_of_none value (number_eq_none_of_side h)

theorem lastRead_cons_congr (x : ParameterSetting) {rest' : List OverrideConfig}
    (h : ∀ value, x.lastRead value rest' = x.lastRead value rest) (value : Int32) :
    x.lastRead value (conf :: rest') = x.lastRead value (conf :: rest) := by
  unfold ParameterSetting.lastRead
  cases x.read conf with
  | none => rfl
  | some t => exact h t

/-- Changes to overrides of one side do not concern the getter of a setting of the other side. -/
theorem lastRead_of_changed {x other : ParameterSetting} (hside : x.side ≠ other.side)
    (left : List OverrideConfig → List OverrideConfig)
    (hnil : left [] = [] ∨ left [] = [x.override v])
    (hnone : ∀ conf rest, x.number conf = none → left (conf :: rest) = conf :: left rest)
    (hsome : ∀ conf rest n, x.number conf = some n →
      ∃ rest', left (conf :: rest) = conf :: rest' ∨ left (conf :: rest) = x.set v conf :: rest')
    (configs : List OverrideConfig) (value : Int32) :
    other.lastRead value (left configs) = other.lastRead value configs := by
  induction configs generalizing value with
  | nil =>
    rcases hnil with heq | heq
    · rw [heq]
    · rw [heq, lastRead_of_side [] value hside, lastRead]
  | cons conf rest ih =>
    cases h : x.number conf with
    | none =>
      rw [hnone conf rest h]
      exact lastRead_cons_congr rest other ih value
    | some n =>
      have hconf : conf.side ≠ other.side := (side_of_number h).1 ▸ hside
      have hset : (x.set v conf).side ≠ other.side := hconf
      obtain ⟨rest', heq | heq⟩ := hsome conf rest n h
      · rw [heq, lastRead_of_side _ value hconf, lastRead_of_side _ value hconf]
      · rw [heq, lastRead_of_side _ value hset, lastRead_of_side _ value hconf]

theorem lastRead_retries_timeoutConfigs (configs : List OverrideConfig) (value : Int32) :
    serviceRetries.lastRead value ((timeoutConfigs v configs).getD configs) =
      serviceRetries.lastRead value configs := by
  refine lastRead_of_changed (x := serviceTimeout) v (by decide)
    (fun l => (timeoutConfigs v l).getD l) (.inr rfl)
    (fun conf rest => timeoutConfigs_cons_of_none v rest) (fun conf rest n h => ⟨rest, ?_⟩) configs
    value
  rw [timeoutConfigs_cons_of_some v rest h]
  split_ifs
  · exact .inl rfl
  · exact .inr rfl

theorem lastRead_timeout_retryConfigs (configs : List OverrideConfig) (value : Int32) :
    serviceTimeout.lastRead value (retryConfigs v configs) =
      serviceTimeout.lastRead value configs := by
  refine lastRead_of_changed (x := serviceRetries) v (by decide) (retryConfigs v)
    (ite_eq_or_eq _ _ _) (fun conf rest => retryConfigs_cons_of_none v rest)
    (fun conf rest n h => ?_) configs value
  rw [retryConfigs_cons_of_some v rest h]
  split_ifs
  · exact ⟨rest, .inl rfl⟩
  · exact ⟨_, .inr rfl⟩

end Lists

/-! ## What the calls leave -/

section Calls

variable {S : Type} {st : LedgerStore S} {s s' : RuleState DynamicConfig S} {req : BaseServiceReq}

/-- The configurator of the service has the fields of the spec, and the overrides. -/
def ConfiguratorHolds (req : BaseServiceReq) (spec : DynamicConfig) (configs : List OverrideConfig)
    (s : RuleState DynamicConfig S) : Prop :=
  ∃ l : Slice OverrideConfig, configuratorAt req s = some { spec with configs := l } ∧
    l.elements = configs

/-- The rule is the configurator of the service. -/
def IsConfigurator (req : BaseServiceReq) (res : Rule DynamicConfig) : Prop :=
  ruleId res = (dynamicConfigKind, buildResourceKey req.mesh req.serviceConfiguratorName)

theorem configuratorAt_put (res : Rule DynamicConfig) (hres : IsConfigurator req res)
    (hlive : s'.live = s.live.put res) : configuratorAt req s' = res.spec := by
  unfold configuratorAt
  rw [hlive, ← hres, Keyed.get?_put_self]
  rfl

theorem ensuresOk_updateConfigurator (ctx : Context DynamicConfig) {res : Rule DynamicConfig}
    (hres : IsConfigurator req res) (spec : DynamicConfig) (configs : List OverrideConfig) :
    EnsuresOk (ReadSem id st) (fun _ s' => ConfiguratorHolds req spec configs s')
      (updateConfigurator ctx (withConfigs res spec configs)) s :=
  (ensuresOk_updateRule ctx _ "").mono fun _ _ h =>
    ⟨some configs, configuratorAt_put (withConfigs res spec configs) hres h.2, rfl⟩

theorem ensuresOk_createConfigurator (ctx : Context DynamicConfig) (x : ParameterSetting)
    (v : Int32) :
    EnsuresOk (ReadSem id st) (fun _ s' => configuratorAt req s' = (x.newConfigurator req v).spec)
      (createConfigurator ctx (x.newConfigurator req v)) s :=
  (ensuresOk_createRule ctx _ "").mono fun _ _ h =>
    configuratorAt_put (x.newConfigurator req v) rfl h

theorem ensuresOk_getConfigurator :
    EnsuresOk (ReadSem id st) (fun res s' => configuratorAt req s = specOf res ∧
      configuratorAt req s' = specOf res ∧ ∀ r, res = some r → IsConfigurator req r)
      (getConfigurator req.serviceConfiguratorName req.mesh) s := by
  refine (ensuresOk_resourceManagerGetByKey _ _).mono fun res s' h => ?_
  obtain ⟨hlive, hfound⟩ := h
  rw [Option.map_id, id_eq] at hfound
  unfold configuratorAt
  rw [hlive, ← hfound]
  refine ⟨rfl, rfl, fun r hr => ?_⟩
  rw [hr] at hfound
  exact (Keyed.get?_eq_some_iff.mp hfound.symm).2

/-- The loop over the overrides, which has passed some of them. -/
theorem ensuresOk_retryLoop (ctx : Context DynamicConfig) {res : Rule DynamicConfig}
    (hres : IsConfigurator req res) (spec : DynamicConfig) (v : Int32)
    (configs passed : List OverrideConfig) (hs : ConfiguratorHolds req spec (passed ++ configs) s) :
    EnsuresOk (ReadSem id st)
      (fun result s' => match result with
        | none => ConfiguratorHolds req spec (passed ++ retryConfigs v configs) s'
        | some left => ConfiguratorHolds req spec left s' ∧
            left ++ retryConfigs v [] = passed ++ retryConfigs v configs)
      (retryLoop ctx res spec v passed configs) s := by
  induction configs generalizing passed s with
  | nil =>
    rw [List.append_nil] at hs
    exact EnsuresOk.pure ⟨hs, rfl⟩
  | cons conf rest ih =>
    cases h : serviceRetries.number conf with
    | none =>
      have hread : getServiceRetryTimes conf = none := read_eq_none h
      have hnext := ih (passed ++ [conf]) (s := s) (by rwa [List.append_assoc])
      rw [retryConfigs_cons_of_none v rest h, retryLoop, hread]
      rwa [List.append_assoc] at hnext
    | some n =>
      have hread : getServiceRetryTimes conf = some (Int32.ofInt n) :=
        read_of_number h
      rw [retryConfigs_cons_of_some v rest h, retryLoop, hread]
      dsimp only
      split_ifs with hn
      · exact EnsuresOk.pure hs
      · refine EnsuresOk.bind (ensuresOk_updateConfigurator ctx hres spec _) fun _ s₁ h₁ => ?_
        have hnext := ih (passed ++ [serviceRetries.set v conf]) (s := s₁)
          (by rwa [List.append_assoc])
        rwa [List.append_assoc] at hnext

/-- What a call leaves in the configurator: `left` where there is one, and a new one for a value
that is not the default where there is none. -/
def Leaves (x : ParameterSetting) (req : BaseServiceReq) (v : Int32)
    (left : List OverrideConfig → List OverrideConfig) (s s' : RuleState DynamicConfig S) : Prop :=
  match configuratorAt req s with
  | some spec => ConfiguratorHolds req spec (left spec.configs.elements) s'
  | none => configuratorAt req s' =
      if v = x.default then none else (x.newConfigurator req v).spec

theorem ensuresOk_create_unless_default (ctx : Context DynamicConfig) (x : ParameterSetting)
    (v : Int32) (hs : configuratorAt req s = none) :
    EnsuresOk (ReadSem id st) (fun _ s' => configuratorAt req s' =
      if v = x.default then none else (x.newConfigurator req v).spec)
      (if v = x.default then pure () else createConfigurator ctx (x.newConfigurator req v)) s := by
  split_ifs
  · exact EnsuresOk.pure hs
  · exact ensuresOk_createConfigurator ctx x v

theorem configuratorHolds_self {spec : DynamicConfig} (h : configuratorAt req s = some spec) :
    ConfiguratorHolds req spec spec.configs.elements s := ⟨spec.configs, h, rfl⟩

/-- What `UpInsertServiceConfigTimeoutConfig` leaves, where it returns `nil`. -/
theorem ensuresOk_upInsertServiceConfigTimeoutConfig (ctx : Context DynamicConfig) (v : Int32) :
    EnsuresOk (ReadSem id st)
      (fun _ s' => Leaves serviceTimeout req v (fun l => (timeoutConfigs v l).getD l) s s')
      (upInsertServiceConfigTimeoutConfig ctx req v) s := by
  refine EnsuresOk.bind ensuresOk_getConfigurator fun res s₁ h₁ => ?_
  obtain ⟨hspec, hat, hres⟩ := h₁
  unfold Leaves
  rw [hspec]
  match res with
  | none | some ⟨_, _, _, none⟩ => exact ensuresOk_create_unless_default ctx serviceTimeout v hat
  | some ⟨kind, mesh, name, some spec⟩ =>
    dsimp only [specOf, Option.bind_some]
    cases hconfigs : timeoutConfigs v spec.configs.elements with
    | none => exact EnsuresOk.pure (configuratorHolds_self hat)
    | some configs => exact ensuresOk_updateConfigurator ctx (hres _ rfl) spec configs

/-- What `UpInsertServiceRetryConfig` leaves, where it returns `nil`. -/
theorem ensuresOk_upInsertServiceRetryConfig (ctx : Context DynamicConfig) (v : Int32) :
    EnsuresOk (ReadSem id st) (fun _ s' => Leaves serviceRetries req v (retryConfigs v) s s')
      (upInsertServiceRetryConfig ctx req v) s := by
  refine EnsuresOk.bind ensuresOk_getConfigurator fun res s₁ h₁ => ?_
  obtain ⟨hspec, hat, hres⟩ := h₁
  unfold Leaves
  rw [hspec]
  match res with
  | none | some ⟨_, _, _, none⟩ => exact ensuresOk_create_unless_default ctx serviceRetries v hat
  | some ⟨kind, mesh, name, some spec⟩ =>
    dsimp only [specOf, Option.bind_some]
    refine EnsuresOk.bind (ensuresOk_retryLoop ctx (hres _ rfl) spec v spec.configs.elements []
      (configuratorHolds_self hat)) fun result s₂ h₂ => ?_
    match result, h₂ with
    | none, h₂ => exact EnsuresOk.pure h₂
    | some left, h₂ =>
      obtain ⟨hleft, happend⟩ := h₂
      rw [List.nil_append] at happend
      rw [← happend]
      unfold retryConfigs
      split_ifs
      · rw [List.append_nil]
        exact EnsuresOk.pure hleft
      · exact ensuresOk_updateConfigurator ctx (hres _ rfl) spec _

end Calls

/-! ## Put-get of the settings -/

section PutGet

variable {S : Type} {st : LedgerStore S} {s s' : RuleState DynamicConfig S} {req : BaseServiceReq}
  {x other : ParameterSetting} {v : Int32} {left : List OverrideConfig → List OverrideConfig}

theorem returns_eq (x : ParameterSetting) (st : LedgerStore S) (req : BaseServiceReq)
    (s : RuleState DynamicConfig S) :
    returns x.getter st req s = .ok (x.lastRead x.default (configsAt req s)) := by
  show Except.ok (x.value (specOf ((s.live.get?
    (dynamicConfigKind, buildResourceKey req.mesh req.serviceConfiguratorName)).map id))) = _
  rw [Option.map_id, id_eq]
  unfold configsAt configuratorAt
  cases specOf (s.live.get?
    (dynamicConfigKind, buildResourceKey req.mesh req.serviceConfiguratorName)) with
  | none => rfl
  | some spec => rfl

theorem Leaves.configsAt_eq (h : Leaves x req v left s s') :
    (∃ spec, configuratorAt req s = some spec) ∧ configsAt req s' = left (configsAt req s) ∨
      configuratorAt req s = none ∧ configsAt req s = [] ∧
        configsAt req s' = if v = x.default then [] else [x.override v] := by
  unfold Leaves at h
  unfold configsAt
  cases hs : configuratorAt req s with
  | some spec =>
    rw [hs] at h
    obtain ⟨l, hl, helements⟩ := h
    rw [hl]
    exact .inl ⟨⟨spec, rfl⟩, helements⟩
  | none =>
    rw [hs] at h
    refine .inr ⟨rfl, rfl, ?_⟩
    rw [h]
    split_ifs <;> rfl

theorem Leaves.fields (h : Leaves x req v left s s') :
    ∀ spec, configuratorAt req s = some spec →
      ∃ configs, configuratorAt req s' = some { spec with configs } := by
  intro spec hspec
  unfold Leaves at h
  rw [hspec] at h
  obtain ⟨l, hl, -⟩ := h
  exact ⟨l, hl⟩

/-- Put-get is a matter of the overrides, as the getter of the other setting returns the same. -/
theorem Leaves.settingPutGet_iff (h : Leaves x req v left s s') (hside : x.side ≠ other.side)
    (hother : ∀ l, other.lastRead other.default (left l) = other.lastRead other.default l) :
    SettingPutGet x x.getter other.getter st req v s s' ↔
      x.PutGet v (configsAt req s) (configsAt req s') ∧
        x.lastRead x.default (configsAt req s') = v := by
  constructor
  · intro hput
    have hget := hput.get
    rw [returns_eq] at hget
    exact ⟨hput.configs, Except.ok.inj hget⟩
  · rintro ⟨hput, hget⟩
    refine ⟨by rw [returns_eq, hget], hput, h.fields, ?_⟩
    rw [returns_eq, returns_eq]
    rcases h.configsAt_eq with ⟨-, hconfigs⟩ | ⟨-, hconfigs, hconfigs'⟩
    · rw [hconfigs, hother]
    · rw [hconfigs, hconfigs']
      split_ifs
      · rfl
      · rw [lastRead_of_side [] other.default hside]
        rfl

/-- Without a configurator the setting can always be set. -/
theorem putGet_of_none (hs : configsAt req s = [])
    (hs' : configsAt req s' = if v = x.default then [] else [x.override v]) :
    x.PutGet v (configsAt req s) (configsAt req s') ∧
      x.lastRead x.default (configsAt req s') = v := by
  rw [hs, hs']
  split_ifs with hv
  · exact ⟨putGet_nil, hv.symm⟩
  · exact ⟨putGet_override, lastRead_override _⟩

/-- The settings obey put-get, with all else unchanged, in every call that returns `nil`: exactly if
the overrides before the call allow it. -/
theorem settings_putGet_iff (ctx : Context DynamicConfig) (st : LedgerStore S)
    (req : BaseServiceReq) (v : Int32) (s s' : RuleState DynamicConfig S) :
    ((upInsertServiceConfigTimeoutConfig ctx req v).run.Runs (ReadSem id st) s (.ok ()) s' →
      (SettingPutGet serviceTimeout getServiceTimeoutConfig getServiceRetryConfig st req v s s' ↔
        TimeoutSettable v ((configsAt req s).filterMap serviceTimeout.number) ∧
          serviceTimeout.Readable v (configsAt req s))) ∧
    ((upInsertServiceRetryConfig ctx req v).run.Runs (ReadSem id st) s (.ok ()) s' →
      (SettingPutGet serviceRetries getServiceRetryConfig getServiceTimeoutConfig st req v s s' ↔
        RetriesSettable v ((configsAt req s).filterMap serviceRetries.number) ∧
          serviceRetries.Readable v (configsAt req s))) := by
  constructor
  · intro hruns
    have hleaves := (ensuresOk_upInsertServiceConfigTimeoutConfig ctx v).of_runs hruns
    refine (hleaves.settingPutGet_iff (by decide)
      fun l => lastRead_retries_timeoutConfigs v l _).trans ?_
    rcases hleaves.configsAt_eq with ⟨-, hconfigs⟩ | ⟨-, hs, hs'⟩
    · rw [hconfigs]
      exact and_congr (putGet_timeoutConfigs_iff v _) (lastRead_timeoutConfigs_iff v _)
    · refine iff_of_true (putGet_of_none hs hs') ?_
      rw [hs]
      exact ⟨trivial, trivial⟩
  · intro hruns
    have hleaves := (ensuresOk_upInsertServiceRetryConfig ctx v).of_runs hruns
    refine (hleaves.settingPutGet_iff (by decide)
      fun l => lastRead_timeout_retryConfigs v l _).trans ?_
    rcases hleaves.configsAt_eq with ⟨-, hconfigs⟩ | ⟨-, hs, hs'⟩
    · rw [hconfigs, putGet_retryConfigs_iff]
      exact and_congr_right fun hsettable => lastRead_retryConfigs_iff v hsettable
    · refine iff_of_true (putGet_of_none hs hs') ?_
      rw [hs]
      exact ⟨trivial, trivial⟩

end PutGet

/-! ## Sample calls -/

/-- A service. -/
def sampleService : BaseServiceReq := ⟨"shop", "", "1.0", "mesh"⟩

/-- An override of the setting with the parameter. -/
def sampleOverride (x : ParameterSetting) (parameter : String) : OverrideConfig :=
  { x.override 0 with parameters := some (Keyed.empty.put (x.parameter, parameter)) }

/-- The configurator of the sample service has the overrides. -/
def sampleConfigurator (configs : List OverrideConfig) : MemoryState DynamicConfig where
  ledger := Memory.init ruleVersionIndexers
  live := Keyed.empty.put (withConfigs (serviceTimeout.newConfigurator sampleService 0)
    ⟨"shop", "service", "v3.0", true, none⟩ configs)

/-- Overrides of both settings. -/
def sampleOverrides : List OverrideConfig :=
  [sampleOverride serviceTimeout "1000", sampleOverride serviceRetries "1"]

/-- The timeout becomes 3000, and the retries become the default. -/
theorem settings_putGet_sample :
    (∃ s', (upInsertServiceConfigTimeoutConfig (plainContext _) sampleService 3000).run.Runs
        (ReadSem id memoryLedgerStore) (sampleConfigurator sampleOverrides) (.ok ()) s' ∧
      SettingPutGet serviceTimeout getServiceTimeoutConfig getServiceRetryConfig memoryLedgerStore
        sampleService 3000 (sampleConfigurator sampleOverrides) s') ∧
    (∃ s', (upInsertServiceRetryConfig (plainContext _) sampleService 2).run.Runs
        (ReadSem id memoryLedgerStore) (sampleConfigurator sampleOverrides) (.ok ()) s' ∧
      SettingPutGet serviceRetries getServiceRetryConfig getServiceTimeoutConfig memoryLedgerStore
        sampleService 2 (sampleConfigurator sampleOverrides) s') := by
  have hconfigs : configsAt sampleService (sampleConfigurator sampleOverrides) = sampleOverrides :=
    rfl
  have hruns := runs_of_toBool id memoryLedgerStore (sampleConfigurator sampleOverrides)
    (upInsertServiceConfigTimeoutConfig (plainContext _) sampleService 3000) (by decide +kernel)
  have hruns' := runs_of_toBool id memoryLedgerStore (sampleConfigurator sampleOverrides)
    (upInsertServiceRetryConfig (plainContext _) sampleService 2) (by decide +kernel)
  refine ⟨⟨_, hruns, ((settings_putGet_iff _ _ _ _ _ _).1 hruns).mpr ?_⟩,
    ⟨_, hruns', ((settings_putGet_iff _ _ _ _ _ _).2 hruns').mpr ?_⟩⟩
  · have hnumbers : sampleOverrides.filterMap serviceTimeout.number = [1000] := by decide +kernel
    rw [hconfigs, hnumbers]
    exact ⟨fun hn => absurd hn (by decide),
      (readable_cons_of_some (n := 1000) (by decide +kernel)).mpr
        (by decide +kernel)⟩
  · have hnumbers : sampleOverrides.filterMap serviceRetries.number = [1] := by decide +kernel
    rw [hconfigs, hnumbers]
    refine ⟨?_, (readable_cons_of_none (by decide +kernel)).mpr rfl⟩
    show if Int32.ofInt 1 = 2 then (1 : ℤ) = (2 : Int32).toInt else RetriesLeft 2 []
    rw [if_neg (by decide)]
    rfl

/-- Retries of 5 over one override with 3: the override is changed, and another one is added. A
timeout of 1 over an override with 4294967297, which is 1 in 32 bits: the override is left. And a
timeout of 3000 over overrides that begin with one of the retries: the getter stops there. -/
theorem settings_not_putGet :
    (∃ s', (upInsertServiceRetryConfig (plainContext _) sampleService 5).run.Runs
        (ReadSem id memoryLedgerStore)
        (sampleConfigurator [sampleOverride serviceRetries "3"]) (.ok ()) s' ∧
      ¬ SettingPutGet serviceRetries getServiceRetryConfig getServiceTimeoutConfig
        memoryLedgerStore sampleService 5
        (sampleConfigurator [sampleOverride serviceRetries "3"]) s') ∧
    (∃ s', (upInsertServiceConfigTimeoutConfig (plainContext _) sampleService 1).run.Runs
        (ReadSem id memoryLedgerStore)
        (sampleConfigurator [sampleOverride serviceTimeout "4294967297"]) (.ok ()) s' ∧
      ¬ SettingPutGet serviceTimeout getServiceTimeoutConfig getServiceRetryConfig
        memoryLedgerStore sampleService 1
        (sampleConfigurator [sampleOverride serviceTimeout "4294967297"]) s') ∧
    (∃ s', (upInsertServiceConfigTimeoutConfig (plainContext _) sampleService 3000).run.Runs
        (ReadSem id memoryLedgerStore) (sampleConfigurator sampleOverrides.reverse) (.ok ()) s' ∧
      ¬ SettingPutGet serviceTimeout getServiceTimeoutConfig getServiceRetryConfig
        memoryLedgerStore sampleService 3000 (sampleConfigurator sampleOverrides.reverse) s') := by
  refine ⟨⟨_, runs_of_toBool _ _ _ _ (by decide +kernel), fun h => ?_⟩,
    ⟨_, runs_of_toBool _ _ _ _ (by decide +kernel), fun h => ?_⟩,
    ⟨_, runs_of_toBool _ _ _ _ (by decide +kernel), fun h => ?_⟩⟩
  · have hgrows := h.configs.grows (by decide +kernel)
    exact absurd (hgrows (sampleOverride serviceRetries "3") (List.mem_singleton.mpr rfl))
      (by decide +kernel)
  · have hnumber := h.configs.exact 4294967297 (by decide +kernel)
    exact absurd hnumber (by decide)
  · exact absurd h.get (by decide +kernel)

end DubboAdmin.Console
