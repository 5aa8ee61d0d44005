import DubboAdmin.Console.ConditionRule
import DubboAdmin.Console.ServiceSettings

/-!
# Region priority and argument routes of a service

The settings of a service that the console keeps in its condition rule
(`pkg/console/service/service.go`): `UpInsertServiceRegionPriorityConfig` and
`UpInsertServiceArgumentRouteConfig`, with their getters. Both are views of one list of condition
texts. A condition with the region marker is the region priority, and one with the word `method` is
an argument route.

`conditions_putGet_iff` says when the two settings obey put-get and leave each other alone. The
argument routes also reset the other fields of the rule, and their getter takes every condition for
a route.
-/

namespace DubboAdmin.Console

open Versioning
open Rules (Slice ConditionRoute)
open Prog (EnsuresOk)
open Strings (contains trimSpace)

/-! ## Condition rules -/

/-- The name of the condition rule of a service. -/
def BaseServiceReq.serviceConditionRuleName (req : BaseServiceReq) : String :=
  req.serviceKey ++ ".condition-router"

section ConditionRules

variable (ctx : Context ConditionRoute)

def getConditionRule (name mesh : String) :
    RuleM ConditionRoute (Option (Rule ConditionRoute)) :=
  resourceManagerGetByKey conditionRouteKind (buildResourceKey mesh name)

def updateConditionRule (res : Rule ConditionRoute) : RuleM ConditionRoute Unit :=
  updateRule ctx res ""

def createConditionRule (res : Rule ConditionRoute) : RuleM ConditionRoute Unit :=
  createRule ctx res ""

end ConditionRules

/-- The spec that the console writes for the conditions of a service. -/
def serviceConditionRoute (req : BaseServiceReq) (conditions : List String) : ConditionRoute where
  configVersion := "v3.0"
  priority := 0
  enabled := true
  force := false
  runtime := true
  key := req.serviceName
  scope := "service"
  conditions := some conditions

/-- `NewConditionRouteResourceWithAttributes`, with the spec. -/
def newConditionRule (req : BaseServiceReq) (spec : ConditionRoute) : Rule ConditionRoute :=
  ⟨conditionRouteKind, req.mesh, req.serviceConditionRuleName, some spec⟩

/-! ## Region priority -/

/-- The condition that prefers the own region. -/
def regionMarker : String := "=>region=$region"

def isServiceSameRegion (condition : String) : Bool := contains (trimSpace condition) regionMarker

/-- The loop of the getter, with the flag so far: `ForEachWithBreak` stops at the first condition
without the marker. -/
def openSameRegionPrior (opened : Bool) : List String → Bool
  | [] => opened
  | condition :: rest =>
    if isServiceSameRegion condition then openSameRegionPrior true rest else false

def getServiceRegionPriorityConfig (req : BaseServiceReq) : RuleM ConditionRoute Bool := do
  match ← getConditionRule req.serviceConditionRuleName req.mesh with
  | none => pure false
  | some ⟨_, _, _, none⟩ => throw nilDereference
  | some ⟨_, _, _, some spec⟩ => pure (openSameRegionPrior false spec.conditions.elements)

/-- The conditions that `UpInsertServiceRegionPriorityConfig` writes for a rule that exists, where
it writes. -/
def regionConditions (enabled : Bool) : List String → Option (List String)
  | [] => if enabled then some [regionMarker] else none
  | condition :: rest =>
    if isServiceSameRegion condition then
      if enabled then none else some rest
    else (regionConditions enabled rest).map (condition :: ·)

def upInsertServiceRegionPriorityConfig (ctx : Context ConditionRoute) (req : BaseServiceReq)
    (enabled : Bool) : RuleM ConditionRoute Unit := do
  match ← getConditionRule req.serviceConditionRuleName req.mesh with
  | some ⟨kind, mesh, name, some spec⟩ =>
    match regionConditions enabled spec.conditions.elements with
    | none => pure ()
    | some conditions =>
      updateConditionRule ctx ⟨kind, mesh, name, some { spec with conditions := some conditions }⟩
  | _ =>
    if enabled then
      createConditionRule ctx (newConditionRule req (serviceConditionRoute req [regionMarker]))
    else pure ()

/-! ## Argument routes -/

def isArgumentRoute (condition : String) : Bool := contains condition "method"

def getServiceArgumentRouteConfig (req : BaseServiceReq) :
    RuleM ConditionRoute (Option (List ServiceArgument)) := do
  match ← getConditionRule req.serviceConditionRuleName req.mesh with
  | some ⟨_, _, _, some spec⟩ =>
    pure (some (spec.conditions.elements.map parseConditionExpression))
  | _ => pure none

/-- The conditions of a rule after its argument routes have been replaced. -/
def argumentConditions (routes : List ServiceArgument) (conditions : List String) : List String :=
  conditions.filter (!isArgumentRoute ·) ++ routes.map ServiceArgument.toExpression

def upInsertServiceArgumentRouteConfig (ctx : Context ConditionRoute) (req : BaseServiceReq)
    (routes : List ServiceArgument) : RuleM ConditionRoute Unit := do
  match ← getConditionRule req.serviceConditionRuleName req.mesh with
  | none =>
    -- The rule is updated also where there is none.
    updateConditionRule ctx
      (newConditionRule req (serviceConditionRoute req (argumentConditions routes [])))
  | some ⟨_, _, _, none⟩ => throw nilDereference
  | some ⟨kind, mesh, name, some spec⟩ =>
    updateConditionRule ctx ⟨kind, mesh, name,
      some (serviceConditionRoute req (argumentConditions routes spec.conditions.elements))⟩

/-! ## Put-get -/

section States

variable {S : Type}

/-- The condition rule of the service. -/
def conditionRuleAt (req : BaseServiceReq) (s : RuleState ConditionRoute S) :
    Option (Rule ConditionRoute) :=
  s.live.get? (conditionRouteKind, buildResourceKey req.mesh req.serviceConditionRuleName)

/-- The conditions of the service. -/
def conditionsAt (req : BaseServiceReq) (s : RuleState ConditionRoute S) : List String :=
  match specOf (conditionRuleAt req s) with
  | none => []
  | some spec => spec.conditions.elements

/-- What the getter of the region priority returns, where nothing fails. -/
def regionReturns (st : LedgerStore S) (req : BaseServiceReq) (s : RuleState ConditionRoute S) :
    Except Failure Bool :=
  (Prog.exec (readStep id st) (getServiceRegionPriorityConfig req).run s).1

/-- What the getter of the argument routes returns, where nothing fails. -/
def argumentReturns (st : LedgerStore S) (req : BaseServiceReq)
    (s : RuleState ConditionRoute S) : Except Failure (Option (List ServiceArgument)) :=
  (Prog.exec (readStep id st) (getServiceArgumentRouteConfig req).run s).1

/-- A call has set the region priority, and left the conditions without the marker. -/
structure RegionPutGet (st : LedgerStore S) (req : BaseServiceReq) (enabled : Bool)
    (s s' : RuleState ConditionRoute S) : Prop where
  get : regionReturns st req s' = .ok enabled
  /-- The conditions without the marker are as they were. -/
  kept : (conditionsAt req s').filter (!isServiceSameRegion ·) =
    (conditionsAt req s).filter (!isServiceSameRegion ·)

/-- A call has set the argument routes, and left everything else. -/
structure ArgumentsPut (st : LedgerStore S) (req : BaseServiceReq)
    (routes : List ServiceArgument) (s s' : RuleState ConditionRoute S) : Prop where
  /-- The conditions that are no argument routes are kept in order. -/
  kept : ((conditionsAt req s).filter (!isArgumentRoute ·)).Sublist (conditionsAt req s')
  /-- The fields of a rule that existed are as they were. -/
  fields : ∀ spec, specOf (conditionRuleAt req s) = some spec →
    ∃ spec', specOf (conditionRuleAt req s') = some spec' ∧ spec'.force = spec.force ∧
      spec'.priority = spec.priority ∧ spec'.enabled = spec.enabled ∧ spec'.runtime = spec.runtime
  /-- The region priority of a rule that existed is as it was. -/
  region : (conditionRuleAt req s).isSome → regionReturns st req s' = regionReturns st req s
  /-- The getter returns one route for each that was given. -/
  routes : argumentReturns st req s' =
    .ok (some (routes.map fun route => parseConditionExpression route.toExpression))

/-- The argument routes can be set: the call returns `nil` where nothing fails, and where it returns
`nil` it has set them and left everything else. -/
structure ArgumentPutGet (ctx : Context ConditionRoute) (st : LedgerStore S) (req : BaseServiceReq)
    (routes : List ServiceArgument) (s : RuleState ConditionRoute S) : Prop where
  succeeds : (Prog.exec (readStep id st)
    (upInsertServiceArgumentRouteConfig ctx req routes).run s).1 = .ok ()
  puts : ∀ s', (upInsertServiceArgumentRouteConfig ctx req routes).run.Runs (ReadSem id st) s
    (.ok ()) s' → ArgumentsPut st req routes s s'

/-- Where nothing fails, an update of a condition rule of the service that exists succeeds, to the
spec that is written for the routes. -/
def UpdateSucceeds (ctx : Context ConditionRoute) (st : LedgerStore S) (req : BaseServiceReq)
    (routes : List ServiceArgument) (s : RuleState ConditionRoute S) : Prop :=
  ∀ res spec, conditionRuleAt req s = some res → res.spec = some spec →
    (Prog.exec (readStep id st) (updateConditionRule ctx { res with
      spec := some (serviceConditionRoute req
        (argumentConditions routes spec.conditions.elements)) }).run s).1 = .ok ()

end States

/-- The region priority can be set over conditions: it can be turned on where all have the marker,
and off where one has none or there is at most one. -/
def RegionAllows (conditions : List String) : Bool → Prop
  | true => conditions.all isServiceSameRegion = true
  | false => conditions.length ≤ 1 ∨ conditions.all isServiceSameRegion = false

/-- The region priority can be set over the rule: there is none, or its conditions allow it, or it
has no spec and the priority is turned on. -/
def RegionSettable (enabled : Bool) : Option (Rule ConditionRoute) → Prop
  | none => True
  | some ⟨_, _, _, none⟩ => enabled = true
  | some ⟨_, _, _, some spec⟩ => RegionAllows spec.conditions.elements enabled

/-- There are conditions, and all have the marker. -/
def RegionOn (conditions : List String) : Prop :=
  conditions ≠ [] ∧ conditions.all isServiceSameRegion = true

/-- The argument routes can be set over the spec: there is one, its fields are those that are
written, all of its conditions are argument routes, and the region priority is on with the new ones
exactly if it was. -/
def ArgumentsSettable (routes : List ServiceArgument) : Option ConditionRoute → Prop
  | none => False
  | some spec =>
    (spec.force = false ∧ spec.priority = 0 ∧ spec.enabled = true ∧ spec.runtime = true) ∧
    (∀ condition ∈ spec.conditions.elements, isArgumentRoute condition = true) ∧
    (RegionOn (routes.map ServiceArgument.toExpression) ↔ RegionOn spec.conditions.elements)

/-! ## Conditions -/

/-- The conditions that a call leaves in a rule that exists. -/
def regionLeft (enabled : Bool) (conditions : List String) : List String :=
  (regionConditions enabled conditions).getD conditions

section Lists

variable {enabled : Bool} {condition : String} {rest : List String}

theorem regionLeft_cons_of_not (h : isServiceSameRegion condition = false) :
    regionLeft enabled (condition :: rest) = condition :: regionLeft enabled rest := by
  have hnot : ¬ isServiceSameRegion condition = true := by
    rw [h]
    exact Bool.false_ne_true
  unfold regionLeft
  rw [regionConditions, if_neg hnot]
  cases regionConditions enabled rest with
  | none => rfl
  | some conditions => rfl

theorem regionLeft_cons_of_marked (h : isServiceSameRegion condition = true) :
    regionLeft enabled (condition :: rest) = if enabled then condition :: rest else rest := by
  unfold regionLeft
  rw [regionConditions, if_pos h]
  split_ifs <;> rfl

theorem isServiceSameRegion_regionMarker : isServiceSameRegion regionMarker = true := by decide

theorem openSameRegionPrior_true (conditions : List String) :
    openSameRegionPrior true conditions = conditions.all isServiceSameRegion := by
  induction conditions with
  | nil => rfl
  | cons condition rest ih =>
    rw [openSameRegionPrior, List.all_cons, ih]
    cases isServiceSameRegion condition <;> rfl

/-- What the getter returns: whether there are conditions and all have the marker. -/
theorem openSameRegionPrior_iff (conditions : List String) :
    openSameRegionPrior false conditions = true ↔ RegionOn conditions := by
  cases conditions with
  | nil => exact iff_of_false Bool.false_ne_true fun h => h.1 rfl
  | cons condition rest =>
    unfold RegionOn
    rw [openSameRegionPrior, List.all_cons, openSameRegionPrior_true]
    cases isServiceSameRegion condition <;> simp

/-- When the region priority is set over the conditions. -/
theorem openSameRegionPrior_regionLeft_iff (conditions : List String) :
    openSameRegionPrior false (regionLeft enabled conditions) = enabled ↔
      RegionAllows conditions enabled := by
  cases conditions with
  | nil =>
    cases enabled with
    | true => exact iff_of_true (by decide +kernel) rfl
    | false => exact iff_of_true rfl (.inl (Nat.zero_le 1))
  | cons condition rest =>
    cases h : isServiceSameRegion condition with
    | false =>
      -- The getter stops at the first condition, which is left.
      rw [regionLeft_cons_of_not h, openSameRegionPrior, h]
      cases enabled <;> simp [RegionAllows, h]
    | true =>
      rw [regionLeft_cons_of_marked h]
      cases enabled with
      | true => simp [RegionAllows, openSameRegionPrior, h, openSameRegionPrior_true]
      | false =>
        have hrest := (openSameRegionPrior_iff rest).not
        simp only [RegionOn, not_and_or, not_not, Bool.not_eq_true] at hrest
        simp [RegionAllows, h, hrest]

theorem filter_regionLeft (enabled : Bool) (conditions : List String) :
    (regionLeft enabled conditions).filter (!isServiceSameRegion ·) =
      conditions.filter (!isServiceSameRegion ·) := by
  induction conditions with
  | nil =>
    cases enabled with
    | true => exact List.filter_cons_of_neg (by rw [isServiceSameRegion_regionMarker]; decide)
    | false => rfl
  | cons condition rest ih =>
    cases h : isServiceSameRegion condition with
    | false => rw [regionLeft_cons_of_not h, List.filter_cons, List.filter_cons, ih]
    | true =>
      rw [regionLeft_cons_of_marked h]
      split_ifs
      · rfl
      · exact (List.filter_cons_of_neg (by rw [h]; decide)).symm

end Lists

/-! ## What the calls leave -/

section Calls

variable {S : Type} {st : LedgerStore S} {s s' : RuleState ConditionRoute S} {req : BaseServiceReq}

/-- The rule is the condition rule of the service. -/
def IsConditionRule (req : BaseServiceReq) (res : Rule ConditionRoute) : Prop :=
  ruleId res = (conditionRouteKind, buildResourceKey req.mesh req.serviceConditionRuleName)

theorem conditionRuleAt_put (res : Rule ConditionRoute) (hres : IsConditionRule req res)
    (hlive : s'.live = s.live.put res) : conditionRuleAt req s' = some res := by
  unfold conditionRuleAt
  rw [hlive, ← hres, Keyed.get?_put_self]

theorem isConditionRule_of_found {res : Rule ConditionRoute}
    (h : conditionRuleAt req s = some res) : IsConditionRule req res :=
  (Keyed.get?_eq_some_iff.mp h).2

theorem ensuresOk_getConditionRule :
    EnsuresOk (ReadSem id st) (fun res s' => s'.live = s.live ∧ res = conditionRuleAt req s)
      (getConditionRule req.serviceConditionRuleName req.mesh) s := by
  refine (ensuresOk_resourceManagerGetByKey _ _).mono fun res s' h => ⟨h.1, ?_⟩
  rw [h.2, Option.map_id, id_eq]
  rfl

/-- What `UpInsertServiceRegionPriorityConfig` leaves of the rule. -/
def RegionLeaves (req : BaseServiceReq) (enabled : Bool) (s' : RuleState ConditionRoute S) :
    Option (Rule ConditionRoute) → Prop
  | some ⟨_, _, _, some spec⟩ => ∃ res l, conditionRuleAt req s' = some res ∧
      res.spec = some { spec with conditions := l } ∧
      l.elements = regionLeft enabled spec.conditions.elements
  | res =>
    if enabled then
      conditionRuleAt req s' =
        some (newConditionRule req (serviceConditionRoute req [regionMarker]))
    else conditionRuleAt req s' = res

/-- Where there is no rule, or no spec. -/
theorem ensuresOk_create_if_enabled (ctx : Context ConditionRoute) (enabled : Bool)
    {res : Option (Rule ConditionRoute)} (hs : conditionRuleAt req s = res) :
    EnsuresOk (ReadSem id st) (fun _ s' => if enabled then
        conditionRuleAt req s' =
          some (newConditionRule req (serviceConditionRoute req [regionMarker]))
        else conditionRuleAt req s' = res)
      (if enabled then
        createConditionRule ctx (newConditionRule req (serviceConditionRoute req [regionMarker]))
      else pure ()) s := by
  split_ifs with h
  · exact (ensuresOk_createRule ctx _ "").mono fun _ _ hput => conditionRuleAt_put _ rfl hput
  · exact EnsuresOk.pure hs

theorem ensuresOk_upInsertServiceRegionPriorityConfig (ctx : Context ConditionRoute)
    (enabled : Bool) :
    EnsuresOk (ReadSem id st) (fun _ s' => RegionLeaves req enabled s' (conditionRuleAt req s))
      (upInsertServiceRegionPriorityConfig ctx req enabled) s := by
  refine EnsuresOk.bind ensuresOk_getConditionRule fun res s₁ h₁ => ?_
  obtain ⟨hlive, hres⟩ := h₁
  have hat : conditionRuleAt req s₁ = res := by
    rw [hres]
    unfold conditionRuleAt
    rw [hlive]
  rw [← hres]
  match res, hat, hres with
  | none, hat, _ | some ⟨_, _, _, none⟩, hat, _ => exact ensuresOk_create_if_enabled ctx enabled hat
  | some ⟨kind, mesh, name, some spec⟩, hat, hres =>
    have hid : IsConditionRule req ⟨kind, mesh, name, some spec⟩ :=
      isConditionRule_of_found hres.symm
    dsimp only
    cases hconditions : regionConditions enabled spec.conditions.elements with
    | none =>
      refine EnsuresOk.pure ⟨_, spec.conditions, hat, rfl, ?_⟩
      unfold regionLeft
      rw [hconditions]
      rfl
    | some conditions =>
      let updated : Rule ConditionRoute :=
        ⟨kind, mesh, name, some { spec with conditions := some conditions }⟩
      refine (ensuresOk_updateRule ctx updated "").mono fun _ _ hput =>
        ⟨updated, some conditions, conditionRuleAt_put updated hid hput.2, rfl, ?_⟩
      unfold regionLeft
      rw [hconditions]
      rfl

/-- `UpInsertServiceArgumentRouteConfig`, where it returns `nil`, has found a rule with a spec and
written its own. -/
theorem ensuresOk_upInsertServiceArgumentRouteConfig (ctx : Context ConditionRoute)
    (routes : List ServiceArgument) :
    EnsuresOk (ReadSem id st)
      (fun _ s' => ∃ spec, specOf (conditionRuleAt req s) = some spec ∧
        specOf (conditionRuleAt req s') = some (serviceConditionRoute req
          (argumentConditions routes spec.conditions.elements)))
      (upInsertServiceArgumentRouteConfig ctx req routes) s := by
  refine EnsuresOk.bind ensuresOk_getConditionRule fun res s₁ h₁ => ?_
  obtain ⟨hlive, hres⟩ := h₁
  rw [← hres]
  match res, hres with
  | none, hres =>
    -- The update finds no rule either.
    refine (ensuresOk_updateRule ctx _ "").mono fun _ _ hput => ?_
    have hnone : s₁.live.get? (ruleId (newConditionRule req
        (serviceConditionRoute req (argumentConditions routes [])))) = none := by
      rw [hlive]
      exact hres.symm
    rw [hnone] at hput
    exact absurd hput.1 Bool.false_ne_true
  | some ⟨kind, mesh, name, none⟩, _ => exact EnsuresOk.throw _
  | some ⟨kind, mesh, name, some spec⟩, hres =>
    have hid : IsConditionRule req ⟨kind, mesh, name, some spec⟩ :=
      isConditionRule_of_found hres.symm
    let updated : Rule ConditionRoute := ⟨kind, mesh, name,
      some (serviceConditionRoute req (argumentConditions routes spec.conditions.elements))⟩
    refine (ensuresOk_updateRule ctx updated "").mono fun _ s₂ hput => ⟨spec, rfl, ?_⟩
    rw [conditionRuleAt_put updated hid hput.2]
    rfl

end Calls

/-! ## Put-get of the settings -/

section PutGet

variable {S : Type} {st : LedgerStore S} {s s' : RuleState ConditionRoute S} {req : BaseServiceReq}

variable {spec : ConditionRoute}

theorem conditionsAt_of_spec (h : specOf (conditionRuleAt req s) = some spec) :
    conditionsAt req s = spec.conditions.elements := by
  unfold conditionsAt
  rw [h]

theorem exec_getConditionRule (st : LedgerStore S) (req : BaseServiceReq)
    (s : RuleState ConditionRoute S) :
    Prog.exec (readStep id st) (getConditionRule req.serviceConditionRuleName req.mesh).run s =
      (.ok (conditionRuleAt req s), s) := by
  have hexec : Prog.exec (readStep id st)
      (getConditionRule req.serviceConditionRuleName req.mesh).run s =
        (.ok ((conditionRuleAt req s).map id), s) := rfl
  rw [hexec, Option.map_id, id_eq]

theorem exists_rule_of_spec (h : specOf (conditionRuleAt req s) = some spec) :
    ∃ kind mesh name, conditionRuleAt req s = some ⟨kind, mesh, name, some spec⟩ := by
  obtain ⟨⟨kind, mesh, name, spec'⟩, hres, hspec⟩ := Option.bind_eq_some_iff.mp h
  obtain rfl : spec' = some spec := hspec
  exact ⟨kind, mesh, name, hres⟩

theorem regionReturns_of_none (h : conditionRuleAt req s = none) :
    regionReturns st req s = .ok false := by
  unfold regionReturns getServiceRegionPriorityConfig
  rw [Prog.exec_bind_ok (exec_getConditionRule st req s), h]
  rfl

theorem regionReturns_of_nil {res : Rule ConditionRoute} (h : conditionRuleAt req s = some res)
    (hnil : res.spec = none) : regionReturns st req s = .error nilDereference := by
  obtain ⟨kind, mesh, name, spec⟩ := res
  obtain rfl : spec = none := hnil
  unfold regionReturns getServiceRegionPriorityConfig
  rw [Prog.exec_bind_ok (exec_getConditionRule st req s), h]
  rfl

theorem regionReturns_of_spec (st : LedgerStore S) (h : specOf (conditionRuleAt req s) = some spec)
    :
    regionReturns st req s = .ok (openSameRegionPrior false spec.conditions.elements) := by
  obtain ⟨kind, mesh, name, hres⟩ := exists_rule_of_spec h
  unfold regionReturns getServiceRegionPriorityConfig
  rw [Prog.exec_bind_ok (exec_getConditionRule st req s), hres]
  rfl

theorem argumentReturns_of_spec (st : LedgerStore S)
    (h : specOf (conditionRuleAt req s) = some spec) :
    argumentReturns st req s =
      .ok (some (spec.conditions.elements.map parseConditionExpression)) := by
  obtain ⟨kind, mesh, name, hres⟩ := exists_rule_of_spec h
  unfold argumentReturns getServiceArgumentRouteConfig
  rw [Prog.exec_bind_ok (exec_getConditionRule st req s), hres]
  rfl

/-- The region priority over a rule with a spec. -/
theorem regionPutGet_of_spec {enabled : Bool} {spec' : ConditionRoute}
    (hs : specOf (conditionRuleAt req s) = some spec)
    (hs' : specOf (conditionRuleAt req s') = some spec')
    (hleft : spec'.conditions.elements = regionLeft enabled spec.conditions.elements) :
    RegionPutGet st req enabled s s' ↔ RegionAllows spec.conditions.elements enabled := by
  have hreturns : regionReturns st req s' =
      .ok (openSameRegionPrior false (regionLeft enabled spec.conditions.elements)) := by
    rw [regionReturns_of_spec st hs', hleft]
  rw [← openSameRegionPrior_regionLeft_iff]
  constructor
  · intro h
    exact Except.ok.inj (hreturns.symm.trans h.get)
  · intro h
    refine ⟨by rw [hreturns, h], ?_⟩
    rw [conditionsAt_of_spec hs, conditionsAt_of_spec hs', hleft, filter_regionLeft]

theorem regionPutGet_of_created
    (hs : conditionsAt req s = [])
    (hs' : conditionRuleAt req s' =
      some (newConditionRule req (serviceConditionRoute req [regionMarker]))) :
    RegionPutGet st req true s s' := by
  have hspec : specOf (conditionRuleAt req s') =
      some (serviceConditionRoute req [regionMarker]) := by
    rw [hs']
    rfl
  refine ⟨?_, ?_⟩
  · rw [regionReturns_of_spec st hspec]
    have hopen : openSameRegionPrior false (regionLeft true []) = true :=
      (openSameRegionPrior_regionLeft_iff []).mpr rfl
    exact congrArg Except.ok hopen
  · rw [hs, conditionsAt_of_spec hspec]
    exact filter_regionLeft true []

theorem conditionsAt_of_no_spec (h : specOf (conditionRuleAt req s) = none) :
    conditionsAt req s = [] := by
  unfold conditionsAt
  rw [h]

/-- When the region priority is set by a call. -/
theorem RegionLeaves.putGet_iff {enabled : Bool}
    (h : RegionLeaves req enabled s' (conditionRuleAt req s)) :
    RegionPutGet st req enabled s s' ↔ RegionSettable enabled (conditionRuleAt req s) := by
  match hres : conditionRuleAt req s with
  | none =>
    rw [hres] at h
    have hnone : conditionsAt req s = [] := conditionsAt_of_no_spec (by rw [hres]; rfl)
    refine iff_of_true ?_ trivial
    cases enabled with
    | true => exact regionPutGet_of_created hnone h
    | false =>
      have hs' : conditionRuleAt req s' = none := h
      have hnone' : conditionsAt req s' = [] := conditionsAt_of_no_spec (by rw [hs']; rfl)
      exact ⟨regionReturns_of_none hs', by rw [hnone, hnone']⟩
  | some ⟨kind, mesh, name, none⟩ =>
    rw [hres] at h
    have hnone : conditionsAt req s = [] := conditionsAt_of_no_spec (by rw [hres]; rfl)
    show _ ↔ enabled = true
    cases enabled with
    | true => exact iff_of_true (regionPutGet_of_created hnone h) rfl
    | false =>
      -- The getter follows the nil pointer that the call has left.
      have hs' : conditionRuleAt req s' = some ⟨kind, mesh, name, none⟩ := h
      refine iff_of_false (fun hput => ?_) Bool.false_ne_true
      have hget := hput.get
      rw [regionReturns_of_nil hs' rfl] at hget
      cases hget
  | some ⟨kind, mesh, name, some spec⟩ =>
    rw [hres] at h
    obtain ⟨res, l, hres', hspec, hleft⟩ := h
    have hs : specOf (conditionRuleAt req s) = some spec := by
      rw [hres]
      rfl
    have hs' : specOf (conditionRuleAt req s') = some { spec with conditions := l } := by
      rw [hres']
      exact hspec
    exact regionPutGet_of_spec hs hs' hleft

/-- When a call that has written its spec has set the argument routes and left everything else. -/
theorem argumentsPut_iff {routes : List ServiceArgument}
    (hs : specOf (conditionRuleAt req s) = some spec)
    (hs' : specOf (conditionRuleAt req s') = some (serviceConditionRoute req
      (argumentConditions routes spec.conditions.elements))) :
    ArgumentsPut st req routes s s' ↔ ArgumentsSettable routes (some spec) := by
  have hconditions' := conditionsAt_of_spec hs'
  have hregion := regionReturns_of_spec st hs
  have hregion' := regionReturns_of_spec st hs'
  have hroutes' := argumentReturns_of_spec st hs'
  constructor
  · intro h
    obtain ⟨spec', hspec', hforce, hpriority, henabled, hruntime⟩ := h.fields spec hs
    obtain rfl := Option.some.inj (hs'.symm.trans hspec')
    -- As many routes are returned as there are conditions, so that none was kept.
    have hcount : (argumentConditions routes spec.conditions.elements).length = routes.length := by
      have hmap := Option.some.inj (Except.ok.inj (hroutes'.symm.trans h.routes))
      have hlength := congrArg List.length hmap
      rwa [List.length_map, List.length_map] at hlength
    have hkept : spec.conditions.elements.filter (!isArgumentRoute ·) = [] := by
      unfold argumentConditions at hcount
      rw [List.length_append, List.length_map] at hcount
      exact List.length_eq_zero_iff.mp (by omega)
    refine ⟨⟨hforce.symm, hpriority.symm, henabled.symm, hruntime.symm⟩, ?_, ?_⟩
    · intro condition hcondition
      simpa using List.filter_eq_nil_iff.mp hkept condition hcondition
    · have hsame := h.region (by
        obtain ⟨kind, mesh, name, hres⟩ := exists_rule_of_spec hs
        rw [hres]
        rfl)
      rw [hregion, hregion'] at hsame
      have hon := Bool.eq_iff_iff.mp (Except.ok.inj hsame)
      unfold serviceConditionRoute argumentConditions at hon
      rwa [hkept, openSameRegionPrior_iff, openSameRegionPrior_iff] at hon
  · rintro ⟨⟨hforce, hpriority, henabled, hruntime⟩, harguments, hon⟩
    have hkept : spec.conditions.elements.filter (!isArgumentRoute ·) = [] :=
      List.filter_eq_nil_iff.mpr fun condition hcondition => by simp [harguments _ hcondition]
    have hwritten : argumentConditions routes spec.conditions.elements =
        routes.map ServiceArgument.toExpression := by
      unfold argumentConditions
      rw [hkept, List.nil_append]
    refine ⟨?_, fun spec₁ hspec₁ => ?_, fun _ => ?_, ?_⟩
    · rw [conditionsAt_of_spec hs, hkept]
      exact List.nil_sublist _
    · obtain rfl := Option.some.inj (hs.symm.trans hspec₁)
      exact ⟨_, hs', hforce.symm, hpriority.symm, henabled.symm, hruntime.symm⟩
    · rw [hregion, hregion', hwritten]
      refine congrArg Except.ok (Bool.eq_iff_iff.mpr ?_)
      rw [openSameRegionPrior_iff, openSameRegionPrior_iff]
      exact hon
    · rw [hroutes', hwritten]
      show Except.ok (some ((routes.map _).map _)) = _
      rw [List.map_map]
      rfl

theorem exec_upInsertServiceArgumentRouteConfig (ctx : Context ConditionRoute)
    (routes : List ServiceArgument) {kind mesh name : String}
    (h : conditionRuleAt req s = some ⟨kind, mesh, name, some spec⟩) :
    Prog.exec (readStep id st) (upInsertServiceArgumentRouteConfig ctx req routes).run s =
      Prog.exec (readStep id st) (updateConditionRule ctx ⟨kind, mesh, name,
        some (serviceConditionRoute req
          (argumentConditions routes spec.conditions.elements))⟩).run s := by
  unfold upInsertServiceArgumentRouteConfig
  rw [Prog.exec_bind_ok (exec_getConditionRule st req s), h]

/-- When the argument routes can be set, where updates succeed. -/
theorem argumentPutGet_iff {ctx : Context ConditionRoute} {routes : List ServiceArgument}
    (hupdates : UpdateSucceeds ctx st req routes s) :
    ArgumentPutGet ctx st req routes s ↔
      ArgumentsSettable routes (specOf (conditionRuleAt req s)) := by
  constructor
  · rintro ⟨hsucceeds, hputs⟩
    have hruns := Prog.runs_exec (readSem_readStep id st)
      (upInsertServiceArgumentRouteConfig ctx req routes).run s
    rw [hsucceeds] at hruns
    obtain ⟨spec, hs, hs'⟩ :=
      (ensuresOk_upInsertServiceArgumentRouteConfig ctx routes).of_runs hruns
    rw [hs]
    exact (argumentsPut_iff hs hs').mp (hputs _ hruns)
  · intro h
    cases hs : specOf (conditionRuleAt req s) with
    | none =>
      rw [hs] at h
      exact h.elim
    | some spec =>
      rw [hs] at h
      obtain ⟨kind, mesh, name, hres⟩ := exists_rule_of_spec hs
      refine ⟨?_, fun s' hruns => ?_⟩
      · rw [exec_upInsertServiceArgumentRouteConfig ctx routes hres]
        exact hupdates ⟨kind, mesh, name, some spec⟩ spec hres rfl
      · obtain ⟨spec', hspec', hs'⟩ :=
          (ensuresOk_upInsertServiceArgumentRouteConfig ctx routes).of_runs hruns
        obtain rfl := Option.some.inj (hs.symm.trans hspec')
        exact (argumentsPut_iff hs hs').mpr h

/-- The two settings obey put-get and leave each other alone: the region priority in every call that
returns `nil`, and the argument routes where updates succeed. Both exactly if the rule before the
call allows it. -/
theorem conditions_putGet_iff (ctx : Context ConditionRoute) (st : LedgerStore S)
    (req : BaseServiceReq) (s : RuleState ConditionRoute S) :
    (∀ enabled s', (upInsertServiceRegionPriorityConfig ctx req enabled).run.Runs (ReadSem id st) s
        (.ok ()) s' →
      (RegionPutGet st req enabled s s' ↔ RegionSettable enabled (conditionRuleAt req s))) ∧
    (∀ routes, UpdateSucceeds ctx st req routes s →
      (ArgumentPutGet ctx st req routes s ↔
        ArgumentsSettable routes (specOf (conditionRuleAt req s)))) := by
  refine ⟨fun enabled s' hruns => ?_, fun routes hupdates => argumentPutGet_iff hupdates⟩
  have hleaves := (ensuresOk_upInsertServiceRegionPriorityConfig ctx enabled).of_runs hruns
  exact hleaves.putGet_iff

end PutGet

/-! ## Sample calls -/

/-- The condition rule of the sample service has the spec. -/
def sampleConditionRule (spec : ConditionRoute) : MemoryState ConditionRoute where
  ledger := Memory.init ruleVersionIndexers
  live := Keyed.empty.put (newConditionRule sampleService spec)

/-- Region priority is turned off over a rule with one such condition, and argument routes are
replaced in a rule with argument routes only. -/
theorem conditions_putGet_sample :
    (∃ s', (upInsertServiceRegionPriorityConfig (plainContext _) sampleService false).run.Runs
        (ReadSem id memoryLedgerStore) (sampleConditionRule
          (serviceConditionRoute sampleService ["host=a", regionMarker])) (.ok ()) s' ∧
      RegionPutGet memoryLedgerStore sampleService false (sampleConditionRule
        (serviceConditionRoute sampleService ["host=a", regionMarker])) s') ∧
    ArgumentPutGet (plainContext _) memoryLedgerStore sampleService [sampleRoute]
      (sampleConditionRule (serviceConditionRoute sampleService ["method=old"])) := by
  have hruns := runs_of_toBool id memoryLedgerStore (sampleConditionRule
    (serviceConditionRoute sampleService ["host=a", regionMarker]))
    (upInsertServiceRegionPriorityConfig (plainContext _) sampleService false) (by decide +kernel)
  have hupdates : UpdateSucceeds (plainContext _) memoryLedgerStore sampleService [sampleRoute]
      (sampleConditionRule (serviceConditionRoute sampleService ["method=old"])) := by
    intro res spec hres hspec
    obtain rfl : newConditionRule sampleService
        (serviceConditionRoute sampleService ["method=old"]) = res := Option.some.inj hres
    obtain rfl : serviceConditionRoute sampleService ["method=old"] = spec :=
      Option.some.inj hspec
    exact eq_ok_of_toBool (by decide +kernel)
  refine ⟨⟨_, hruns, ((conditions_putGet_iff _ _ _ _).1 false _ hruns).mpr ?_⟩,
    ((conditions_putGet_iff _ _ _ _).2 _ hupdates).mpr ⟨⟨rfl, rfl, rfl, rfl⟩, ?_, ?_⟩⟩
  · exact .inr (by decide +kernel)
  · decide +kernel
  · unfold RegionOn
    decide +kernel

/-- Region priority stays on over a rule with two such conditions, and off over a rule with another
condition. Argument routes cannot be set where there is no rule, and they reset the force of a rule
that exists. -/
theorem conditions_not_putGet :
    (∃ s', (upInsertServiceRegionPriorityConfig (plainContext _) sampleService false).run.Runs
        (ReadSem id memoryLedgerStore) (sampleConditionRule
          (serviceConditionRoute sampleService [regionMarker, regionMarker])) (.ok ()) s' ∧
      regionReturns memoryLedgerStore sampleService s' = .ok true) ∧
    (∃ s', (upInsertServiceRegionPriorityConfig (plainContext _) sampleService true).run.Runs
        (ReadSem id memoryLedgerStore) (sampleConditionRule
          (serviceConditionRoute sampleService ["host=a"])) (.ok ()) s' ∧
      regionReturns memoryLedgerStore sampleService s' = .ok false) ∧
    (Prog.exec (readStep id memoryLedgerStore)
      (upInsertServiceArgumentRouteConfig (plainContext _) sampleService [sampleRoute]).run
      ⟨Memory.init ruleVersionIndexers, Keyed.empty⟩).1.toBool = false ∧
    (∃ s', (upInsertServiceArgumentRouteConfig (plainContext _) sampleService
        [sampleRoute]).run.Runs (ReadSem id memoryLedgerStore) (sampleConditionRule
          { serviceConditionRoute sampleService [] with force := true }) (.ok ()) s' ∧
      ¬ ArgumentsPut memoryLedgerStore sampleService [sampleRoute] (sampleConditionRule
        { serviceConditionRoute sampleService [] with force := true }) s') := by
  refine ⟨⟨_, runs_of_toBool _ _ _ _ (by decide +kernel), by decide +kernel⟩,
    ⟨_, runs_of_toBool _ _ _ _ (by decide +kernel), by decide +kernel⟩, by decide +kernel,
    ⟨_, runs_of_toBool _ _ _ _ (by decide +kernel), fun h => ?_⟩⟩
  obtain ⟨spec', hspec', hforce, -⟩ := h.fields _ rfl
  have hwritten : (specOf (conditionRuleAt sampleService (Prog.exec
      (readStep id memoryLedgerStore)
      (upInsertServiceArgumentRouteConfig (plainContext _) sampleService [sampleRoute]).run
      (sampleConditionRule { serviceConditionRoute sampleService [] with
        force := true })).2)).map ConditionRoute.force = some false := by decide +kernel
  rw [hspec'] at hwritten
  exact absurd (hforce.symm.trans (Option.some.inj hwritten)) (by decide)

end DubboAdmin.Console
