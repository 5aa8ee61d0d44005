import DubboAdmin.Resource
import Mathlib

/-!
# Version records and their keys

The records of the rule version ledger (`pkg/core/versioning`) are resources of a kind of their own,
stored under the key `mesh/kind-name-version-N` and indexed by their parent rule under
`kind/mesh/name`. A parent rule is known by its kind, mesh and name (`Parent`), of which the last
two are parsed from its resource key.

Keys tell the version numbers of a parent apart, and parents, too, as long as the kinds hold no `-`:
a parsed mesh holds no `/`, the kind ends at the first `-`, and the number starts after the last
one, so that the name may hold anything.
-/

namespace DubboAdmin.Versioning

open Strings

/-! ## Records -/

/-- `Source`: where a rule mutation comes from. -/
inductive Source where
  /-- An edit in the console. -/
  | admin
  /-- An event of the upstream registry. -/
  | upstream
  /-- The baseline of a rule that comes under version tracking. -/
  | bootstrap
  /-- A historical snapshot, published again. -/
  | rollback
deriving DecidableEq, Repr

/-- What a record is of. -/
inductive Operation where
  | create
  | update
  | delete
deriving DecidableEq, Repr

/-- `meshproto.RuleVersion`: what is stored for one version of a rule. A time is an integer, with
`0` for the zero time, and a timestamp may be missing. -/
structure RuleVersion where
  parentRuleKind : String
  parentRuleMesh : String
  parentRuleName : String
  versionNo : ℤ
  contentHash : String
  specJson : String
  operation : Operation
  source : Source
  author : String
  reason : String
  createdAt : Option ℤ
  recordedAt : Option ℤ
  rolledBackFromVersionNo : ℤ
deriving DecidableEq, Repr

/-- A resource of the version store, whose `Spec` may be `nil`. -/
abbrev RuleVersionResource := Resource (Option RuleVersion)

def ruleVersionKind : String := "RuleVersion"

/-- `Version`: a record, as the ledger returns it. -/
structure Version where
  ruleKind : String
  mesh : String
  resourceKey : String
  ruleName : String
  versionNo : ℤ
  contentHash : String
  specJSON : String
  source : Source
  operation : Operation
  author : String
  reason : String
  rolledBackFromVersionNo : Option ℤ
  createdAt : ℤ
  recordedAt : ℤ
  isLatestRecorded : Bool
deriving DecidableEq, Repr

/-- The fields of `InsertRequest` that an insertion reads. -/
structure InsertRequest where
  ruleKind : String
  resourceKey : String
  specJSON : String
  contentHash : String
  source : Source
  operation : Operation
  author : String
  reason : String
  rolledBackFromVersionNo : Option ℤ
  createdAt : ℤ

def timestampAsTime (ts : Option ℤ) : ℤ := ts.getD 0

/-- The version that a stored record stands for. -/
def RuleVersion.toVersion (spec : RuleVersion) : Version :=
  let createdAt := timestampAsTime spec.createdAt
  let recordedAt := timestampAsTime spec.recordedAt
  { ruleKind := spec.parentRuleKind
    mesh := spec.parentRuleMesh
    resourceKey := buildResourceKey spec.parentRuleMesh spec.parentRuleName
    ruleName := spec.parentRuleName
    versionNo := spec.versionNo
    contentHash := spec.contentHash
    specJSON := spec.specJson
    source := spec.source
    operation := spec.operation
    author := spec.author
    reason := spec.reason
    rolledBackFromVersionNo :=
      if spec.rolledBackFromVersionNo ≠ 0 then some spec.rolledBackFromVersionNo else none
    createdAt := createdAt
    recordedAt := if recordedAt = 0 then createdAt else recordedAt
    isLatestRecorded := false }

def protoToVersion : Option RuleVersion → Except Failure Version
  | none => .error (.err "[InvalidArgument], RuleVersion spec is nil")
  | some spec => .ok spec.toVersion

/-! ## Keys -/

def extractMesh (resourceKey : String) : String := (parseResourceKey resourceKey).1

def extractName (resourceKey : String) : String := (parseResourceKey resourceKey).2

def buildVersionResourceKey (kind parentResourceKey : String) (versionNo : ℤ) : String :=
  let name := kind ++ "-" ++ extractName parentResourceKey ++ "-version-" ++ versionNo.repr
  buildResourceKey (extractMesh parentResourceKey) name

def buildParentIndexKey (kind resourceKey : String) : String :=
  kind ++ "/" ++ extractMesh resourceKey ++ "/" ++ extractName resourceKey

def byParentRuleIndexName : String := "ByParentRule"

/-- `byParentRule`, which never fails: an object of another type has no value. -/
def byParentRule : IndexFunc (Option RuleVersion) := fun obj =>
  if obj.kind = ruleVersionKind then
    match obj.spec with
    | none => some []
    | some spec =>
      some [spec.parentRuleKind ++ "/" ++ spec.parentRuleMesh ++ "/" ++ spec.parentRuleName]
  else some []

/-- The index functions of the kind. -/
def ruleVersionIndexers : Indexers (Option RuleVersion) :=
  (AList.singleton byMeshIndex byMesh).insert byParentRuleIndexName byParentRule

def newRuleVersionResource (req : InsertRequest) (versionNo createdAt recordedAt : ℤ) :
    RuleVersionResource where
  kind := ruleVersionKind
  mesh := extractMesh req.resourceKey
  name := (parseResourceKey (buildVersionResourceKey req.ruleKind req.resourceKey versionNo)).2
  spec := some {
    parentRuleKind := req.ruleKind
    parentRuleMesh := extractMesh req.resourceKey
    parentRuleName := extractName req.resourceKey
    versionNo := versionNo
    contentHash := req.contentHash
    specJson := req.specJSON
    operation := req.operation
    source := req.source
    author := req.author
    reason := req.reason
    createdAt := some createdAt
    recordedAt := some recordedAt
    rolledBackFromVersionNo := req.rolledBackFromVersionNo.getD 0 }

def versionResourceMatchesParent (rv : RuleVersionResource) (kind resourceKey : String) : Bool :=
  match rv.spec with
  | none => false
  | some spec => spec.parentRuleKind = kind ∧ spec.parentRuleMesh = extractMesh resourceKey ∧
      spec.parentRuleName = extractName resourceKey

/-! ## Parents -/

/-- A parent rule: what its versions are kept under. -/
structure Parent where
  kind : String
  mesh : String
  name : String
deriving DecidableEq, Repr

/-- The parent that a kind and a resource key name. -/
def parentOf (kind resourceKey : String) : Parent :=
  ⟨kind, extractMesh resourceKey, extractName resourceKey⟩

/-- The parent of a request. -/
def InsertRequest.parent (req : InsertRequest) : Parent := parentOf req.ruleKind req.resourceKey

/-- The parent of a stored record. -/
def RuleVersion.parent (spec : RuleVersion) : Parent :=
  ⟨spec.parentRuleKind, spec.parentRuleMesh, spec.parentRuleName⟩

/-- The key of a version of a parent. -/
def Parent.versionKey (p : Parent) (versionNo : ℤ) : String :=
  buildResourceKey p.mesh (p.kind ++ "-" ++ p.name ++ "-version-" ++ versionNo.repr)

theorem buildVersionResourceKey_eq (kind resourceKey : String) (versionNo : ℤ) :
    buildVersionResourceKey kind resourceKey versionNo =
      (parentOf kind resourceKey).versionKey versionNo := rfl

theorem matchesParent_iff {rv : RuleVersionResource} {kind resourceKey : String} :
    versionResourceMatchesParent rv kind resourceKey = true ↔
      ∃ spec, rv.spec = some spec ∧ spec.parent = parentOf kind resourceKey := by
  unfold versionResourceMatchesParent
  cases rv.spec with
  | none => simp
  | some spec => simp [RuleVersion.parent, parentOf]

theorem slash_notMem_extractMesh (resourceKey : String) :
    '/' ∉ (extractMesh resourceKey).toList := by
  unfold extractMesh parseResourceKey
  cases hcut : cut '/' resourceKey with
  | none => simp
  | some ab => exact (cut_eq_some (a := ab.1) (b := ab.2) hcut).2

theorem resourceKey_newRuleVersionResource (req : InsertRequest)
    (versionNo createdAt recordedAt : ℤ) :
    (newRuleVersionResource req versionNo createdAt recordedAt).resourceKey =
      req.parent.versionKey versionNo := by
  have hparse := parseResourceKey_buildResourceKey (slash_notMem_extractMesh req.resourceKey)
    (req.ruleKind ++ "-" ++ extractName req.resourceKey ++ "-version-" ++ versionNo.repr)
  unfold Resource.resourceKey newRuleVersionResource buildVersionResourceKey
  dsimp only
  rw [hparse]
  rfl

theorem Parent.versionKey_inj_right (p : Parent) {n n' : ℤ} (h : p.versionKey n = p.versionKey n') :
    n = n' := by
  unfold Parent.versionKey buildResourceKey at h
  rw [String.append_right_inj, String.append_right_inj] at h
  exact Int.repr_injective h

theorem dash_notMem_repr {n : ℤ} (h : 0 ≤ n) : '-' ∉ n.repr.toList := by
  obtain ⟨m, rfl⟩ := Int.eq_ofNat_of_zero_le h
  exact notMem_repr_of_not_isDigit (by decide) m

/-- The keys of parents tell them apart, together with the numbers: the mesh ends at the first `/`,
the kind at the first `-` after it, and the number starts after the last `-`. -/
theorem Parent.versionKey_inj {p p' : Parent} {n n' : ℤ} (hmesh : '/' ∉ p.mesh.toList)
    (hmesh' : '/' ∉ p'.mesh.toList) (hkind : '-' ∉ p.kind.toList) (hkind' : '-' ∉ p'.kind.toList)
    (hn : 0 ≤ n) (hn' : 0 ≤ n') (h : p.versionKey n = p'.versionKey n') : p = p' ∧ n = n' := by
  obtain ⟨hm, hrest⟩ := buildResourceKey_inj hmesh hmesh' h
  have hsplit : p.kind ++ String.singleton '-' ++ (p.name ++ "-version-" ++ n.repr) =
      p'.kind ++ String.singleton '-' ++ (p'.name ++ "-version-" ++ n'.repr) := by
    rw [show String.singleton '-' = "-" from rfl]
    simpa only [String.append_assoc] using hrest
  obtain ⟨hk, hrest⟩ := join_inj hkind hkind' hsplit
  have hchars : (p.name ++ "-version").toList ++ '-' :: n.repr.toList =
      (p'.name ++ "-version").toList ++ '-' :: n'.repr.toList := by
    have := congrArg String.toList hrest
    simpa [String.toList_append] using this
  obtain ⟨hname, hnumber⟩ := join_inj_right (dash_notMem_repr hn) (dash_notMem_repr hn') hchars
  have hname' : p.name = p'.name :=
    (String.append_left_inj "-version").mp (String.toList_inj.mp hname)
  refine ⟨?_, Int.repr_injective (String.toList_inj.mp hnumber)⟩
  obtain ⟨kind, mesh, name⟩ := p
  obtain rfl := hm
  obtain rfl := hk
  obtain rfl := hname'
  rfl

end DubboAdmin.Versioning
