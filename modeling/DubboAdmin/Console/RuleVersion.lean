import DubboAdmin.Versioning.Append

/-!
# Rule mutations and their history

The console's rule mutations (`pkg/console/service/rule_version.go`): `createRule`, `updateRule`,
`deleteRule` and `RollbackRuleVersion`, with what they call of the versioning service
(`pkg/core/versioning/service.go`, `normalize.go`) and of the resource manager
(`pkg/core/manager/manager.go`). Each is a program over single steps (`RuleOp`), every one of which
may fail (`RuleSem`). The registry and the store of the live rules are one map. A call of the
adapter is one step, which runs the adapter's program to its end.
-/

namespace DubboAdmin.Console

open Versioning
open Prog (perform)
open Strings (trimSpace)

/-! ## Rules -/

/-- A rule, whose `Spec` may be `nil`. -/
abbrev Rule (σ : Type) := Resource (Option σ)

/-- What tells rules apart: the kind, and the resource key. -/
abbrev RuleId := String × String

/-- The kind and key of a rule. -/
def ruleId {σ : Type} (r : Rule σ) : RuleId := (r.kind, r.resourceKey)

/-- The parent that the versions of a rule are kept under. -/
def ruleParent (id : RuleId) : Parent := parentOf id.1 id.2

def conditionRouteKind : String := "ConditionRoute"

def tagRouteKind : String := "TagRoute"

def dynamicConfigKind : String := "DynamicConfig"

def ruleResourceKinds : List String := [dynamicConfigKind, conditionRouteKind, tagRouteKind]

/-- A rule, by its kind, mesh and name. -/
structure RuleRef where
  kind : String
  mesh : String
  name : String

/-- The reference of a rule. -/
def RuleRef.of {σ : Type} (res : Rule σ) : RuleRef := ⟨res.kind, res.mesh, res.name⟩

/-- The key of the rule that is referred to. -/
def RuleRef.resourceKey (ruleRef : RuleRef) : String := buildResourceKey ruleRef.mesh ruleRef.name

/-- The kind and key of the rule that is referred to. -/
def RuleRef.id (ruleRef : RuleRef) : RuleId := (ruleRef.kind, ruleRef.resourceKey)

/-! ## Normal forms -/

/-- The encodings of specs that the code takes from libraries. -/
structure Codec (σ : Type) where
  /-- The canonical JSON of a spec: marshalled, read as a plain value, and marshalled again. -/
  marshalSpec : σ → Except Failure String
  unmarshalSpec : String → String → Except Failure σ
  hashSpecJSON : String → String

def deleteSpecJSON : String := "\x7b\x7d"

section Normalize

variable {σ : Type} (codec : Codec σ)

/-- `NormalizeSpec`: the hash and the canonical JSON. -/
def normalizeSpec : Option σ → Except Failure (String × String)
  | none => .ok (codec.hashSpecJSON deleteSpecJSON, deleteSpecJSON)
  | some spec => do
    let specJSON ← codec.marshalSpec spec
    pure (codec.hashSpecJSON specJSON, specJSON)

def normalizeResource (res : Rule σ) : Except Failure (String × String) :=
  normalizeSpec codec res.spec

def resourceFromSpecJSON (ruleRef : RuleRef) (specJSON : String) : Except Failure (Rule σ) :=
  if ruleRef.kind ∈ [conditionRouteKind, tagRouteKind, dynamicConfigKind] then do
    let spec ← codec.unmarshalSpec ruleRef.kind specJSON
    pure ⟨ruleRef.kind, ruleRef.mesh, ruleRef.name, some spec⟩
  else .error (.err "[InvalidArgument], unsupported rule kind")

def buildInsertRequest (res : Rule σ) (op : Operation) (source : Source) (author reason : String)
    (rolledBackFromVersionNo : Option ℤ) (createdAt : ℤ) : Except Failure InsertRequest := do
  let (hash, specJSON) ← normalizeResource codec res
  let specJSON := if op = .delete then deleteSpecJSON else specJSON
  let hash := if op = .delete then codec.hashSpecJSON specJSON else hash
  pure {
    ruleKind := res.kind
    resourceKey := res.resourceKey
    specJSON := specJSON
    contentHash := hash
    source := source
    operation := op
    author := if trimSpace author = "" then "system:unknown" else trimSpace author
    reason := reason
    rolledBackFromVersionNo := rolledBackFromVersionNo
    createdAt := createdAt }

end Normalize

/-! ## The adapter's calls -/

/-- `HistorySnapshot`, the type. -/
structure HistorySnapshot where
  versions : List Version
  head : Option Version
  deleted : Bool

def historySnapshotFromState (state : HistoryState) : HistorySnapshot :=
  match state.versions with
  | [] => ⟨[], none, false⟩
  | head :: versions =>
    ⟨{ head with isLatestRecorded := true } :: versions, some head, head.operation = .delete⟩

/-- The calls of the adapter that the service makes. Each holds the lock of the parent. -/
inductive AdapterCall where
  | insertVersion (req : InsertRequest) (maxVersions : ℕ)
  | historySnapshot (kind resourceKey : String)
  | getVersion (kind resourceKey : String) (versionNo : ℤ)

/-- What a call of the adapter returns. -/
def AdapterCall.Res : AdapterCall → Type
  | .insertVersion _ _ => Except Failure Version
  | .historySnapshot _ _ => Except Failure HistorySnapshot
  | .getVersion _ _ _ => Except Failure Version

/-- `HistorySnapshot`. -/
def historySnapshotProg (kind resourceKey : String) :
    LedgerProg (Except Failure HistorySnapshot) := do
  match ← historyState kind resourceKey with
  | .error e => pure (.error e)
  | .ok state => pure (.ok (historySnapshotFromState state))

/-- `GetVersion`. -/
def getVersionProg (kind resourceKey : String) (versionNo : ℤ) :
    LedgerProg (Except Failure Version) := do
  match ← getVersionResourceForRule kind resourceKey versionNo with
  | .error e => pure (.error e.toFailure)
  | .ok rv => pure (protoToVersion rv.spec)

/-- The program of a call of the adapter. -/
def AdapterCall.prog : (c : AdapterCall) → LedgerProg c.Res
  | .insertVersion req maxVersions => Versioning.insertVersion req maxVersions
  | .historySnapshot kind resourceKey => historySnapshotProg kind resourceKey
  | .getVersion kind resourceKey versionNo => getVersionProg kind resourceKey versionNo

/-! ## Steps -/

/-- A write of the rule governor. -/
inductive RuleWrite (σ : Type) where
  | createRule (r : Rule σ)
  | updateRule (r : Rule σ)
  | deleteRule (r : Rule σ)

/-- The single steps of a mutation. -/
inductive RuleOp (σ : Type) where
  | lock (key : String)
  | unlock (key : String)
  | timeNow
  /-- A call of the version store's adapter. -/
  | adapter (c : AdapterCall)
  | resourceKindRoute (kind : String)
  /-- `GetByKey` of the store of a kind. -/
  | getByKey (kind key : String)
  | resourceMeshRoute (mesh : String)
  | write (w : RuleWrite σ)

/-- What a step answers. -/
def RuleOp.Res {σ : Type} : RuleOp σ → Type
  | .lock _ => Except Failure Unit
  | .unlock _ => Unit
  | .timeNow => ℤ
  | .adapter c => c.Res
  | .resourceKindRoute _ => Except Failure Unit
  | .getByKey _ _ => Except Failure (Option (Rule σ))
  | .resourceMeshRoute _ => Except Failure Unit
  | .write _ => Except Failure Unit

/-- A program over these steps. -/
abbrev RuleProg (σ α : Type) := Prog (RuleOp σ) RuleOp.Res α

/-- A program that may end with an error. -/
abbrev RuleM (σ α : Type) := ExceptT Failure (Prog (RuleOp σ) RuleOp.Res) α

section Programs

variable {σ α : Type}

def resourceKindRoute (kind : String) : RuleM σ Unit :=
  ExceptT.mk (perform (RuleOp.resourceKindRoute kind))

def resourceMeshRoute (mesh : String) : RuleM σ Unit :=
  ExceptT.mk (perform (RuleOp.resourceMeshRoute mesh))

/-- A write of the rule governor. -/
def governorWrite (w : RuleWrite σ) : RuleM σ Unit := ExceptT.mk (perform (RuleOp.write w))

def insertVersion (req : InsertRequest) (maxVersions : ℕ) : RuleM σ Version :=
  ExceptT.mk (perform (RuleOp.adapter (.insertVersion req maxVersions)))

def historySnapshot (kind resourceKey : String) : RuleM σ HistorySnapshot :=
  ExceptT.mk (perform (RuleOp.adapter (.historySnapshot kind resourceKey)))

def getVersion (kind resourceKey : String) (versionNo : ℤ) : RuleM σ Version :=
  ExceptT.mk (perform (RuleOp.adapter (.getVersion kind resourceKey versionNo)))

/-- `time.Now`. -/
def timeNow : RuleM σ ℤ := ExceptT.mk do
  let (now : ℤ) ← perform RuleOp.timeNow
  pure (.ok now)

/-! ## The resource manager -/

/-- What `GetByKey` of the resource manager makes of the store's answer: where the store reports no
resource, its error is dropped. -/
def getByKeyFromStore (kind key : String) : RuleM σ (Option (Rule σ)) := ExceptT.mk do
  let (found : Except Failure (Option (Rule σ))) ← perform (RuleOp.getByKey kind key)
  match found with
  | .error _ => pure (.ok none)
  | .ok item => pure (.ok item)

/-- `GetByKey` of the resource manager. -/
def resourceManagerGetByKey (kind key : String) : RuleM σ (Option (Rule σ)) := do
  resourceKindRoute kind
  getByKeyFromStore kind key

/-- `Add` and `Update` of the resource manager, by the write of the governor that they call. -/
def resourceManagerWrite (r : Rule σ) (w : RuleWrite σ) : RuleM σ Unit :=
  if r.kind ∉ ruleResourceKinds then throw (.err "[InvalidArgument], invalid resource kind")
  else do
    resourceMeshRoute r.mesh
    governorWrite w

/-- `Add` of the resource manager. -/
def resourceManagerAdd (r : Rule σ) : RuleM σ Unit := resourceManagerWrite r (.createRule r)

/-- `Update` of the resource manager. -/
def resourceManagerUpdate (r : Rule σ) : RuleM σ Unit := resourceManagerWrite r (.updateRule r)

/-- Whether `GetByKey` of the resource manager finds something; its error counts as a no. -/
def resourceManagerHas (kind key : String) : RuleM σ Bool := ExceptT.mk do
  match ← (resourceManagerGetByKey kind key).run with
  | .ok (some (_ : Rule σ)) => pure (.ok true)
  | _ => pure (.ok false)

/-- `Upsert` of the resource manager. -/
def resourceManagerUpsert (r : Rule σ) : RuleM σ Unit :=
  if r.kind ∉ ruleResourceKinds then throw (.err "[InvalidArgument], invalid resource kind")
  else do
    let found ← resourceManagerHas r.kind r.resourceKey
    if found then resourceManagerUpdate r else resourceManagerAdd r

/-- `DeleteByKey` of the resource manager. -/
def resourceManagerDeleteByKey (kind mesh key : String) : RuleM σ Unit :=
  if kind ∉ ruleResourceKinds then throw (.err "[InvalidArgument], invalid resource kind")
  else do
    resourceMeshRoute mesh
    let found ← (resourceManagerGetByKey kind key).adapt
      (wrapError ("failed to get resource " ++ key))
    match found with
    | none => throw (.err (kind ++ " " ++ key ++ " does not exist"))
    | some r => governorWrite (.deleteRule r)

/-! ## The versioning service -/

/-- `versioning.Service`: its retention limit, and whether it has a store. -/
structure Service where
  /-- `maxVersions`, which is no limit unless it is positive. -/
  maxVersions : ℤ
  hasStore : Bool

/-- What the mutations read from the console's context. -/
structure Context (σ : Type) where
  lockManager : Bool
  ruleVersioning : Option Service
  codec : Codec σ

def errVersionStoreError : Failure := .err "rule version store error"

def errRollbackToDelete : Failure := .err "cannot roll back to a DELETE marker"

def errRollbackToCurrent : Failure := .err "cannot roll back to a version identical to current"

def ensureAvailable (svc : Service) : RuleM σ Unit :=
  if svc.hasStore then pure () else throw errVersionStoreError

def requiredRuleVersioning (ctx : Context σ) : RuleM σ Service :=
  match ctx.ruleVersioning with
  | none => throw errVersionStoreError
  | some svc => pure svc

/-- A pure computation that may fail. -/
def ofExcept : Except Failure α → RuleM σ α
  | .ok a => pure a
  | .error e => throw e

def append (ctx : Context σ) (svc : Service) (res : Rule σ) (op : Operation) (source : Source)
    (author reason : String) (rolledBackFromVersionNo : Option ℤ) : RuleM σ Version := do
  ensureAvailable svc
  let now ← timeNow
  let req ← ofExcept
    (buildInsertRequest ctx.codec res op source author reason rolledBackFromVersionNo now)
  insertVersion req svc.maxVersions.toNat

/-- `HasHistory`. The adapter's `LatestVersion` is the head of the snapshot, and
`ErrVersionNotFound` where there is none. -/
def hasHistory (svc : Service) (kind mesh ruleName : String) : RuleM σ Bool := do
  ensureAvailable svc
  let snapshot ← historySnapshot kind (buildResourceKey mesh ruleName)
  pure snapshot.head.isSome

def get (svc : Service) (ruleRef : RuleRef) (versionNo : ℤ) : RuleM σ Version := do
  ensureAvailable svc
  let version ← getVersion ruleRef.kind ruleRef.resourceKey versionNo
  let snapshot ← historySnapshot ruleRef.kind ruleRef.resourceKey
  match snapshot.head with
  | none => pure version
  | some head =>
    pure { version with isLatestRecorded := version.versionNo = head.versionNo }

/-! ## The mutations -/

def ruleLockKey (ruleRef : RuleRef) : String :=
  let keyPrefix :=
    if ruleRef.kind = conditionRouteKind then "condition_rule"
    else if ruleRef.kind = tagRouteKind then "tag_route"
    else if ruleRef.kind = dynamicConfigKind then "configurator_rule"
    else ruleRef.kind
  keyPrefix ++ ":" ++ ruleRef.mesh ++ ":" ++ ruleRef.name

/-- `WithLock` of the lock: the lock is released however the function ends, and an error of the
release is only logged. -/
def withLock (key : String) (fn : RuleM σ α) : RuleM σ α := ExceptT.mk do
  let (locked : Except Failure Unit) ← perform (RuleOp.lock key)
  match locked with
  | .error e => pure (.error (wrapError "failed to acquire lock" e))
  | .ok () => do
    let result ← fn.run
    let () ← perform (RuleOp.unlock key)
    pure result

def withRuleLock (ctx : Context σ) (ruleRef : RuleRef) (fn : RuleM σ α) : RuleM σ α :=
  if ctx.lockManager then withLock (ruleLockKey ruleRef) fn else fn

def getRuleIfExists (ruleRef : RuleRef) : RuleM σ (Option (Rule σ)) :=
  resourceManagerGetByKey ruleRef.kind ruleRef.resourceKey

def getExistingRule (ruleRef : RuleRef) : RuleM σ (Rule σ) := do
  match ← getRuleIfExists ruleRef with
  | none => throw (.err (ruleRef.kind ++ " " ++ ruleRef.resourceKey ++ " does not exist"))
  | some res => pure res

def appendRuleHistory (ctx : Context σ) (res : Rule σ) (op : Operation) (source : Source)
    (author reason : String) (rolledBackFromVersionNo : Option ℤ) : RuleM σ Version := do
  let svc ← requiredRuleVersioning ctx
  append ctx svc res op source author reason rolledBackFromVersionNo

def ensureBaselineHistory (ctx : Context σ) (res : Rule σ) : RuleM σ Unit := do
  let svc ← requiredRuleVersioning ctx
  let found ← hasHistory svc res.kind res.mesh res.name
  if found then pure ()
  else do
    let _ ← append ctx svc res .create .bootstrap "system:baseline"
      "import existing rule before first edit" none
    pure ()

def createRule (ctx : Context σ) (res : Rule σ) (author : String) : RuleM σ Unit :=
  withRuleLock ctx (.of res) do
    let _ ← appendRuleHistory ctx res .create .admin author "" none
    resourceManagerAdd res

def updateRule (ctx : Context σ) (res : Rule σ) (author : String) : RuleM σ Unit :=
  withRuleLock ctx (.of res) do
    let existing ← getExistingRule (.of res)
    ensureBaselineHistory ctx existing
    let _ ← appendRuleHistory ctx res .update .admin author "" none
    resourceManagerUpdate res

def deleteRule (ctx : Context σ) (ruleRef : RuleRef) (author : String) : RuleM σ Unit :=
  withRuleLock ctx ruleRef do
    match ← resourceManagerGetByKey ruleRef.kind ruleRef.resourceKey with
    | none => pure ()
    | some snapshot => do
      ensureBaselineHistory ctx snapshot
      let _ ← appendRuleHistory ctx snapshot .delete .admin author "" none
      resourceManagerDeleteByKey ruleRef.kind ruleRef.mesh ruleRef.resourceKey

/-- What a rollback returns. -/
structure RollbackResult where
  rolledBackFromVersionNo : ℤ
  versionNo : ℤ
  source : Source

/-- The check of `RollbackRuleVersion` on the live rule: a rollback must change it. -/
def rollbackChanges (ctx : Context σ) (target : Version) : Option (Rule σ) → RuleM σ Unit
  | none => pure ()
  | some current => do
    let (hash, _) ← ofExcept (normalizeResource ctx.codec current)
    if hash = target.contentHash then throw errRollbackToCurrent else pure ()

/-- `RollbackRuleVersion`, under the lock. A target has one of the three operations, so that the
error for any other one does not occur. -/
def rollbackLocked (ctx : Context σ) (svc : Service) (ruleRef : RuleRef) (targetVersionNo : ℤ)
    (reason author : String) : RuleM σ RollbackResult := do
  let target ← get svc ruleRef targetVersionNo
  if target.operation = .delete then throw errRollbackToDelete
  else do
    let current ← getRuleIfExists ruleRef
    rollbackChanges ctx target current
    let res ← ofExcept (resourceFromSpecJSON ctx.codec ruleRef target.specJSON)
    let operation := if current.isSome then Operation.update else .create
    let appended ← appendRuleHistory ctx res operation .rollback author reason
      (some target.versionNo)
    resourceManagerUpsert res
    pure ⟨target.versionNo, appended.versionNo, .rollback⟩

def rollbackRuleVersion (ctx : Context σ) (ruleRef : RuleRef) (targetVersionNo : ℤ)
    (reason author : String) : RuleM σ RollbackResult :=
  match ctx.ruleVersioning with
  | none => throw errVersionStoreError
  | some svc =>
    if trimSpace reason = "" then throw (.err "[InvalidArgument], rollback reason is required")
    else withRuleLock ctx ruleRef
      (rollbackLocked ctx svc ruleRef targetVersionNo (trimSpace reason) author)

/-- A rule mutation that is asked for. -/
inductive Mutation (σ : Type) where
  | create (res : Rule σ) (author : String)
  | update (res : Rule σ) (author : String)
  | delete (ruleRef : RuleRef) (author : String)
  | rollback (ruleRef : RuleRef) (targetVersionNo : ℤ) (reason author : String)

/-- The rule that a mutation is about. -/
def Mutation.id : Mutation σ → RuleId
  | .create res _ => ruleId res
  | .update res _ => ruleId res
  | .delete ruleRef _ => ruleRef.id
  | .rollback ruleRef _ _ _ => ruleRef.id

/-- The program of a mutation, by its error. -/
def Mutation.program (ctx : Context σ) : Mutation σ → RuleM σ Unit
  | .create res author => createRule ctx res author
  | .update res author => updateRule ctx res author
  | .delete ruleRef author => deleteRule ctx ruleRef author
  | .rollback ruleRef targetVersionNo reason author => do
    let _ ← rollbackRuleVersion ctx ruleRef targetVersionNo reason author
    pure ()

end Programs

/-! ## What the steps may do -/

/-- The live rules: at most one per kind and key. -/
abbrev LiveRules (σ : Type) := Keyed (ruleId (σ := σ))

/-- The version store, and the registry with the live rules. -/
structure RuleState (σ S : Type) where
  ledger : S
  live : LiveRules σ

variable {σ S : Type}

/-- The rule that a write is about. -/
def RuleWrite.id : RuleWrite σ → RuleId
  | .createRule r => ruleId r
  | .updateRule r => ruleId r
  | .deleteRule r => ruleId r

/-- The live rule that a write leaves. -/
def RuleWrite.result : RuleWrite σ → Option (Rule σ)
  | .createRule r => some r
  | .updateRule r => some r
  | .deleteRule _ => none

/-- The live rules after a write. -/
def RuleWrite.apply (live : LiveRules σ) : RuleWrite σ → LiveRules σ
  | .createRule r => live.put r
  | .updateRule r => live.put r
  | .deleteRule r => live.erase (ruleId r)

theorem RuleWrite.get?_apply (w : RuleWrite σ) (live : LiveRules σ) :
    (w.apply live).get? w.id = w.result := by
  cases w with
  | createRule r | updateRule r => exact Keyed.get?_put_self live r
  | deleteRule r => exact Keyed.get?_erase_self live (ruleId r)

/-- What a step may do. A write to the registry that fails may have taken effect all the same. -/
inductive RuleSem (st : LedgerStore S) (s : RuleState σ S) :
    (o : RuleOp σ) → o.Res → RuleState σ S → Prop
  | lock (key : String) (locked : Except Failure Unit) : RuleSem st s (.lock key) locked s
  | unlock (key : String) : RuleSem st s (.unlock key) () s
  | timeNow (now : ℤ) : RuleSem st s .timeNow now s
  | resourceKindRoute (kind : String) (route : Except Failure Unit) :
      RuleSem st s (.resourceKindRoute kind) route s
  | resourceMeshRoute (mesh : String) (route : Except Failure Unit) :
      RuleSem st s (.resourceMeshRoute mesh) route s
  | getByKey (kind key : String) :
      RuleSem st s (.getByKey kind key) (.ok (s.live.get? (kind, key))) s
  | failGetByKey (kind key : String) (e : Failure) : RuleSem st s (.getByKey kind key) (.error e) s
  | adapter (c : AdapterCall) (r : c.Res) (ledger : S)
      (hruns : c.prog.Runs (LedgerSem st) s.ledger r ledger) :
      RuleSem st s (.adapter c) r { s with ledger }
  | write (w : RuleWrite σ) : RuleSem st s (.write w) (.ok ()) { s with live := w.apply s.live }
  /-- The write fails and changes nothing. -/
  | failWrite (w : RuleWrite σ) (e : Failure) : RuleSem st s (.write w) (.error e) s
  /-- The write fails after it has taken effect. -/
  | loseWrite (w : RuleWrite σ) (e : Failure) :
      RuleSem st s (.write w) (.error e) { s with live := w.apply s.live }

/-- A step where nothing fails, over a version store that answers by `f` and its clock. -/
def stepOver {T : Type} (now : T → ℤ × T) (f : T → (o : LedgerOp) → o.Res × T)
    (s : RuleState σ T) : (o : RuleOp σ) → o.Res × RuleState σ T
  | .lock _ => (.ok (), s)
  | .unlock _ => ((), s)
  | .timeNow => ((now s.ledger).1, { s with ledger := (now s.ledger).2 })
  | .adapter c =>
    let answer := Prog.exec f c.prog s.ledger
    (answer.1, { s with ledger := answer.2 })
  | .resourceKindRoute _ => (.ok (), s)
  | .getByKey kind key => (.ok (s.live.get? (kind, key)), s)
  | .resourceMeshRoute _ => (.ok (), s)
  | .write w => (.ok (), { s with live := w.apply s.live })

/-- A step where nothing fails and the clock stands still. -/
def ruleStep (st : LedgerStore S) : RuleState σ S → (o : RuleOp σ) → o.Res × RuleState σ S :=
  stepOver (fun l => (1, l)) (ledgerStep st)

/-- It is one of the steps that may be taken. -/
theorem ruleSem_ruleStep (st : LedgerStore S) (s : RuleState σ S) (o : RuleOp σ) :
    RuleSem st s o (ruleStep st s o).1 (ruleStep st s o).2 := by
  cases o with
  | lock key => exact .lock key _
  | unlock key => exact .unlock key
  | timeNow => exact .timeNow 1
  | adapter c => exact .adapter c _ _ (Prog.runs_exec (fun s o => LedgerSem.run o) c.prog s.ledger)
  | resourceKindRoute kind => exact .resourceKindRoute kind _
  | getByKey kind key => exact .getByKey kind key
  | resourceMeshRoute mesh => exact .resourceMeshRoute mesh _
  | write w => exact .write w

/-! ## A sample console -/

/-- Specs that are their own JSON and hash. -/
def sampleCodec : Codec String where
  marshalSpec spec := .ok spec
  unmarshalSpec _ specJSON := .ok specJSON
  hashSpecJSON specJSON := specJSON

/-- A console without a lock, over the memory store, that keeps one version of a rule. -/
def sampleContext : Context String where
  lockManager := false
  ruleVersioning := some ⟨1, true⟩
  codec := sampleCodec

/-- A tag route with the spec. -/
def sampleRule (spec : String) : Rule String := ⟨tagRouteKind, "mesh", "app", some spec⟩

/-- No version and no rule. -/
def sampleRules : RuleState String (Memory.ResourceStore (Option RuleVersion)) :=
  ⟨Memory.init ruleVersionIndexers, Keyed.empty⟩

theorem sound_sampleRules : Sound memoryLedgerStore sampleRules.ledger := ⟨rfl, trivial⟩

end DubboAdmin.Console
