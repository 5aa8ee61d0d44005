import DubboAdmin.Store.Interface
import DubboAdmin.Versioning.Record

/-!
# The version store adapter

`ResourceStoreAdapter` of `pkg/core/versioning`: `InsertVersion` derives the next number of a parent
from what is stored for it, adds the record under the key of that number, retries under a later
number where another writer was first, and finally trims the history to the most recent records.

The calls are programs over single steps (`LedgerOp`): an operation of the store, a reading of the
clock, or a look at the context. The adapter's lock is left out; it only orders the calls of one
adapter.
-/

namespace DubboAdmin.Versioning

open Prog (perform)

/-! ## Steps -/

/-- The single steps of the adapter. -/
inductive LedgerOp where
  | ctxErr
  | timeNow
  | byIndex (indexName indexedValue : String)
  | getByKey (key : String)
  | add (rv : RuleVersionResource)
  | delete (rv : RuleVersionResource)

/-- What a step answers. -/
def LedgerOp.Res : LedgerOp → Type
  | .ctxErr => Option Failure
  | .timeNow => ℤ
  | .byIndex _ _ => Except Failure (List RuleVersionResource)
  | .getByKey _ => Except Failure (Option RuleVersionResource)
  | .add _ => Except Failure Unit
  | .delete _ => Except Failure Unit

/-- A program of the adapter. -/
abbrev LedgerProg (α : Type) := Prog LedgerOp LedgerOp.Res α

/-- `ctx.Err`. -/
def ctxErr : LedgerProg (Option Failure) := perform LedgerOp.ctxErr

/-- `time.Now`. -/
def timeNow : LedgerProg ℤ := perform LedgerOp.timeNow

def byIndex (indexName indexedValue : String) :
    LedgerProg (Except Failure (List RuleVersionResource)) :=
  perform (LedgerOp.byIndex indexName indexedValue)

def getByKey (key : String) : LedgerProg (Except Failure (Option RuleVersionResource)) :=
  perform (LedgerOp.getByKey key)

def add (rv : RuleVersionResource) : LedgerProg (Except Failure Unit) := perform (LedgerOp.add rv)

def delete (rv : RuleVersionResource) : LedgerProg (Except Failure Unit) :=
  perform (LedgerOp.delete rv)

/-! ## Reading the history -/

/-- An error that wraps `ErrVersionStoreError`. -/
def versionStoreError (msg : String) : Failure := .err ("rule version store error: " ++ msg)

/-- An error with the cause that it wraps. -/
def wrapError (msg : String) : Failure → Failure
  | .err cause => .err (msg ++ ": " ++ cause)
  | .panic cause => .panic cause

def duplicateVersionNoError (kind resourceKey : String) (versionNo : ℤ) : Failure :=
  versionStoreError ("duplicate version number for kind=" ++ kind ++ " mesh=" ++
    extractMesh resourceKey ++ " rule=" ++ extractName resourceKey ++ " versionNo=" ++
    versionNo.repr)

/-- The error of the type assertion on an object that is no `RuleVersionResource`. -/
def notRuleVersion (obj : RuleVersionResource) : Failure :=
  versionStoreError ("expected RuleVersionResource, got *v1alpha1." ++ obj.kind ++ "Resource")

/-- `versionFromObject`, with `none` for an object that is not included. -/
def versionFromObject (obj : RuleVersionResource) (kind resourceKey : String) (filterParent : Bool)
    (specContext : String) : Except Failure (Option Version) :=
  if obj.kind ≠ ruleVersionKind then .error (notRuleVersion obj)
  else match obj.spec with
    | none =>
      let specContext := if specContext = "" then obj.resourceKey else specContext
      .error (versionStoreError ("RuleVersion spec is nil for " ++ specContext))
    | some spec =>
      if spec.parentRuleKind ≠ kind then .ok none
      else if filterParent && !versionResourceMatchesParent obj kind resourceKey then .ok none
      else (protoToVersion (some spec)).map some

def versionsFromIndexObjects (objs : List RuleVersionResource) (kind resourceKey : String)
    (filterParent : Bool) (specContext : String) : Except Failure (List Version) := do
  let versions ← objs.mapM fun obj =>
    versionFromObject obj kind resourceKey filterParent specContext
  pure versions.reduceOption

/-- The first number that was seen before. -/
def firstDuplicate (seenVersionNo : List ℤ) : List ℤ → Option ℤ
  | [] => none
  | versionNo :: rest =>
    if versionNo ∈ seenVersionNo then some versionNo
    else firstDuplicate (versionNo :: seenVersionNo) rest

/-- The order of a history: the highest number first. -/
def newestFirst (v : Version) : ℤ := -v.versionNo

def validateAndSortVersions (kind resourceKey : String) (versions : List Version) :
    Except Failure (List Version) :=
  match firstDuplicate [] (versions.map Version.versionNo) with
  | some versionNo => .error (duplicateVersionNoError kind resourceKey versionNo)
  | none => .ok (sortBy newestFirst versions)

/-- `historyState`, the type. -/
structure HistoryState where
  versions : List Version
  latest : Option Version
  maxVersionNo : ℤ

/-- The state that a sorted history gives. -/
def HistoryState.ofVersions : List Version → HistoryState
  | [] => ⟨[], none, 0⟩
  | v :: versions => ⟨v :: versions, some v, v.versionNo⟩

theorem versions_ofVersions (versions : List Version) :
    (HistoryState.ofVersions versions).versions = versions := by
  cases versions with
  | nil => rfl
  | cons v versions => rfl

variable {versions : List Version} {v : Version}

theorem le_maxVersionNo (h : Ascending newestFirst versions) (hv : v ∈ versions) :
    v.versionNo ≤ (HistoryState.ofVersions versions).maxVersionNo := by
  cases versions with
  | nil => cases hv
  | cons w versions =>
    rcases List.mem_cons.mp hv with rfl | hv
    · exact le_rfl
    · have hlt : -w.versionNo < -v.versionNo := List.rel_of_pairwise_cons h hv
      exact (neg_lt_neg_iff.mp hlt).le

theorem exists_newer (h : Ascending newestFirst versions) {keep : ℕ} (hkeep : keep > 0)
    (hv : v ∈ versions.drop keep) :
    ∃ w ∈ versions, v.versionNo < w.versionNo := by
  cases versions with
  | nil => simp at hv
  | cons w versions =>
    obtain ⟨k, rfl⟩ := Nat.exists_eq_succ_of_ne_zero (Nat.pos_iff_ne_zero.mp hkeep)
    have hlt : -w.versionNo < -v.versionNo :=
      List.rel_of_pairwise_cons h (List.mem_of_mem_drop hv)
    exact ⟨w, List.mem_cons_self, neg_lt_neg_iff.mp hlt⟩

/-- What `historyState` makes of the objects that the index returns. -/
def historyOf (kind resourceKey : String) (objs : List RuleVersionResource) :
    Except Failure HistoryState := do
  let versions ← versionsFromIndexObjects objs kind resourceKey true
    ("parent " ++ buildParentIndexKey kind resourceKey)
  let versions ← validateAndSortVersions kind resourceKey versions
  pure (.ofVersions versions)

def historyState (kind resourceKey : String) : LedgerProg (Except Failure HistoryState) := do
  match ← byIndex byParentRuleIndexName (buildParentIndexKey kind resourceKey) with
  | .error e => pure (.error e)
  | .ok objs => pure (historyOf kind resourceKey objs)

/-- The errors of `getVersionResourceForRule`. -/
inductive GetError where
  /-- `ErrVersionNotFound`. -/
  | versionNotFound
  | other (e : Failure)

/-- The error value. -/
def GetError.toFailure : GetError → Failure
  | .versionNotFound => .err "rule version not found"
  | .other e => e

/-- The checks of `getVersionResourceForRule` on what is stored under the key. -/
def checkVersionResource (kind resourceKey : String) (versionNo : ℤ) :
    Option RuleVersionResource → Except GetError RuleVersionResource
  | none => .error .versionNotFound
  | some rv =>
    let versionResourceKey := buildVersionResourceKey kind resourceKey versionNo
    if rv.kind ≠ ruleVersionKind then .error (.other (notRuleVersion rv))
    else match rv.spec with
      | none => .error (.other (versionStoreError
          ("RuleVersion spec is nil for key " ++ versionResourceKey)))
      | some spec =>
        if !versionResourceMatchesParent rv kind resourceKey || spec.versionNo ≠ versionNo then
          .error (.other (versionStoreError ("RuleVersion key " ++ versionResourceKey ++
            " does not match parent or version number")))
        else .ok rv

def getVersionResourceForRule (kind resourceKey : String) (versionNo : ℤ) :
    LedgerProg (Except GetError RuleVersionResource) := do
  match ← getByKey (buildVersionResourceKey kind resourceKey versionNo) with
  | .error e => pure (.error (.other e))
  | .ok obj => pure (checkVersionResource kind resourceKey versionNo obj)

variable {kind resourceKey : String}

/-- The resource that passes the checks is the one under the key, and a record of the parent with
the number. -/
theorem checkVersionResource_eq_ok {versionNo : ℤ} {obj : Option RuleVersionResource}
    {rv : RuleVersionResource} (h : checkVersionResource kind resourceKey versionNo obj = .ok rv) :
    obj = some rv ∧ rv.kind = ruleVersionKind ∧ ∃ spec, rv.spec = some spec ∧
      spec.parent = parentOf kind resourceKey ∧ spec.versionNo = versionNo := by
  unfold checkVersionResource at h
  cases obj with
  | none => cases h
  | some rv' =>
    dsimp only at h
    split_ifs at h with hkind
    cases hspec : rv'.spec with
    | none =>
      rw [hspec] at h
      cases h
    | some spec =>
      rw [hspec] at h
      dsimp only at h
      split_ifs at h with hcheck
      obtain rfl : rv' = rv := Except.ok.inj h
      simp only [Bool.or_eq_true, Bool.not_eq_true', decide_eq_true_eq, not_or, not_not,
        Bool.not_eq_false] at hcheck
      obtain ⟨spec', hspec', hparent⟩ := matchesParent_iff.mp hcheck.1
      obtain rfl : spec = spec' := Option.some.inj (hspec.symm.trans hspec')
      exact ⟨rfl, not_not.mp hkind, spec, hspec, hparent, hcheck.2⟩

/-! ## Inserting a version -/

def maxVersionAllocateAttempts : ℕ := 16

/-- The check of `ctx.Err()`: the call goes on where there is no error. -/
def unlessCancelled {α : Type} (rest : LedgerProg (Except Failure α)) :
    LedgerProg (Except Failure α) := do
  match ← ctxErr with
  | some e => pure (.error e)
  | none => rest

/-- The loop of `insertVersionLocked` that adds the record, with the attempts that are left and the
error of the attempt before. -/
def allocate (req : InsertRequest) (createdAt recordedAt : ℤ) :
    ℕ → ℤ → Failure → LedgerProg (Except Failure RuleVersionResource)
  | 0, _, addErr => pure (.error (wrapError ("failed to allocate unique rule version number after "
      ++ maxVersionAllocateAttempts.repr ++ " attempts") addErr))
  | attempts + 1, versionNo, _ => unlessCancelled do
    let rv := newRuleVersionResource req versionNo createdAt recordedAt
    match ← add rv with
    | .ok () => pure (.ok rv)
    | .error addErr =>
    -- Another writer may have taken the key. If it has, the next number follows its record.
    match ← getVersionResourceForRule req.ruleKind req.resourceKey versionNo with
    | .error .versionNotFound =>
      pure (.error (wrapError ("failed to add rule version " ++ versionNo.repr) addErr))
    | .error (.other e) => pure (.error e)
    | .ok _ => unlessCancelled do
    match ← historyState req.ruleKind req.resourceKey with
    | .error e => pure (.error e)
    | .ok state =>
    if state.maxVersionNo + 1 ≤ versionNo then
      pure (.error (wrapError
        ("failed to allocate unique rule version number " ++ versionNo.repr) addErr))
    else allocate req createdAt recordedAt attempts (state.maxVersionNo + 1) addErr

/-- The loop of `trimVersionsLocked`. -/
def deleteVersions (kind resourceKey : String) : List Version → LedgerProg (Except Failure Unit)
  | [] => pure (.ok ())
  | v :: toDelete => unlessCancelled do
    match ← getVersionResourceForRule kind resourceKey v.versionNo with
    | .error e => pure (.error e.toFailure)
    | .ok rv =>
    match ← delete rv with
    | .error e => pure (.error e)
    | .ok () => deleteVersions kind resourceKey toDelete

def trimVersionsLocked (kind resourceKey : String) (keep : ℕ) :
    LedgerProg (Except Failure Unit) := do
  match ← historyState kind resourceKey with
  | .error e => pure (.error e)
  | .ok state =>
    if state.versions.length ≤ keep then pure (.ok ())
    else deleteVersions kind resourceKey (state.versions.drop keep)

/-- The end of `insertVersionLocked`, once the record is stored: an error of the retention is only
logged. -/
def finish (req : InsertRequest) (maxVersions : ℕ) (rv : RuleVersionResource) :
    LedgerProg (Except Failure Version) := unlessCancelled do
  if maxVersions > 0 then
    let _ ← trimVersionsLocked req.ruleKind req.resourceKey maxVersions
    pure (protoToVersion rv.spec)
  else pure (protoToVersion rv.spec)

/-- `createdAt` of `insertVersionLocked`: the time of the request, or else that of the clock. -/
def createdAt (req : InsertRequest) : LedgerProg ℤ :=
  if req.createdAt = 0 then timeNow else pure req.createdAt

/-- `insertVersionLocked` from the first number on. -/
def insertFrom (req : InsertRequest) (maxVersions : ℕ) (versionNo : ℤ) :
    LedgerProg (Except Failure Version) := do
  let createdAt ← createdAt req
  let recordedAt ← timeNow
  unlessCancelled do
  -- The loop is entered at least once, so that there is an error where it ends without a record.
  match ← allocate req createdAt recordedAt maxVersionAllocateAttempts versionNo (.err "") with
  | .error e => pure (.error e)
  | .ok rv => finish req maxVersions rv

/-- `InsertVersion`, with `insertVersionLocked`. -/
def insertVersion (req : InsertRequest) (maxVersions : ℕ) :
    LedgerProg (Except Failure Version) := unlessCancelled do
  match ← historyState req.ruleKind req.resourceKey with
  | .error e => pure (.error e)
  | .ok state => unlessCancelled (insertFrom req maxVersions (state.maxVersionNo + 1))

/-! ## What the ledger holds of a parent -/

/-- The stored resource is a record of the parent. -/
structure IsRecord (p : Parent) (r : RuleVersionResource) (spec : RuleVersion) : Prop where
  /-- The resource is one of the version store's type. -/
  ofKind : r.kind = ruleVersionKind
  holds : r.spec = some spec
  ofParent : spec.parent = p

/-- The version of the parent that a stored resource holds, if it holds one. -/
def recordOf (p : Parent) (r : RuleVersionResource) : Option Version :=
  match r.spec with
  | none => none
  | some spec => if r.kind = ruleVersionKind ∧ spec.parent = p then some spec.toVersion else none

/-- The history of a parent: the versions stored for it, the highest number first. -/
def history (p : Parent) (stored : List RuleVersionResource) : List Version :=
  sortBy newestFirst (stored.filterMap (recordOf p))

/-- The numbers of a history descend strictly. -/
abbrev Descending (versions : List Version) : Prop := Ascending newestFirst versions

variable {r : RuleVersionResource}

theorem recordOf_eq_some_iff {p : Parent} :
    recordOf p r = some v ↔ ∃ spec, IsRecord p r spec ∧ spec.toVersion = v := by
  unfold recordOf
  constructor
  · intro h
    cases hspec : r.spec with
    | none =>
      rw [hspec] at h
      cases h
    | some spec =>
      rw [hspec] at h
      dsimp only at h
      split_ifs at h with hrecord
      exact ⟨spec, ⟨hrecord.1, hspec, hrecord.2⟩, Option.some.inj h⟩
  · rintro ⟨spec, hrecord, rfl⟩
    rw [hrecord.holds]
    exact if_pos ⟨hrecord.ofKind, hrecord.ofParent⟩

theorem mem_history {p : Parent} {stored : List RuleVersionResource} :
    v ∈ history p stored ↔ ∃ r ∈ stored, ∃ spec, IsRecord p r spec ∧ spec.toVersion = v := by
  unfold history
  rw [mem_sortBy, List.mem_filterMap]
  simp only [recordOf_eq_some_iff]

/-- `firstDuplicate` finds nothing in distinct numbers only. -/
theorem firstDuplicate_eq_none_iff {seen numbers : List ℤ} :
    firstDuplicate seen numbers = none ↔ numbers.Nodup ∧ ∀ n ∈ numbers, n ∉ seen := by
  induction numbers generalizing seen with
  | nil => simp [firstDuplicate]
  | cons n numbers ih =>
    unfold firstDuplicate
    split_ifs with hn
    · simp [hn]
    · rw [ih, List.nodup_cons]
      rw [List.forall_mem_cons]
      simp only [List.mem_cons, not_or]
      constructor
      · rintro ⟨hnodup, hnew⟩
        exact ⟨⟨fun hmem => (hnew n hmem).1 rfl, hnodup⟩, hn, fun m hm => (hnew m hm).2⟩
      · rintro ⟨⟨hmem, hnodup⟩, -, hnew⟩
        exact ⟨hnodup, fun m hm => ⟨fun heq => hmem (heq ▸ hm), hnew m hm⟩⟩

theorem nodup_newestFirst_iff :
    (versions.map newestFirst).Nodup ↔ (versions.map Version.versionNo).Nodup := by
  have hmap : versions.map newestFirst = (versions.map Version.versionNo).map fun n => -n := by
    simp [newestFirst, Function.comp_def]
  rw [hmap]
  exact List.nodup_map_iff neg_injective

theorem record_of_indexed {v : String} (h : v ∈ ruleVersionIndexers.values byParentRuleIndexName r)
    :
    r.kind = ruleVersionKind ∧ ∃ spec, r.spec = some spec := by
  have hvalues :
      ruleVersionIndexers.values byParentRuleIndexName r = (byParentRule r).getD [] := rfl
  rw [hvalues] at h
  unfold byParentRule at h
  split_ifs at h with hkind
  · cases hspec : r.spec with
    | none => simp [hspec] at h
    | some spec => exact ⟨hkind, spec, rfl⟩
  · simp at h

theorem indexed_of_record {spec : RuleVersion} (h : IsRecord (parentOf kind resourceKey) r spec) :
    buildParentIndexKey kind resourceKey ∈
      ruleVersionIndexers.values byParentRuleIndexName r := by
  have hvalues :
      ruleVersionIndexers.values byParentRuleIndexName r = (byParentRule r).getD [] := rfl
  have hparent := h.ofParent
  obtain ⟨hkind, hmesh, hname⟩ := Parent.mk.inj hparent
  rw [hvalues, byParentRule, if_pos h.ofKind, h.holds]
  simp [buildParentIndexKey, hkind, hmesh, hname]

/-- An object that holds a record is included when the record is one of the parent. -/
theorem versionFromObject_eq {specContext : String} (hkind : r.kind = ruleVersionKind)
    {spec : RuleVersion} (hspec : r.spec = some spec) :
    versionFromObject r kind resourceKey true specContext =
      .ok (recordOf (parentOf kind resourceKey) r) := by
  unfold versionFromObject recordOf
  rw [if_neg (not_not_intro hkind), hspec]
  dsimp only
  by_cases hparent : spec.parent = parentOf kind resourceKey
  · have hmatches : versionResourceMatchesParent r kind resourceKey = true :=
      matchesParent_iff.mpr ⟨spec, hspec, hparent⟩
    have hsame : spec.parentRuleKind = kind := congrArg Parent.kind hparent
    rw [if_neg (not_not_intro hsame), hmatches, if_neg (by decide), if_pos ⟨hkind, hparent⟩]
    rfl
  · have hmatches : versionResourceMatchesParent r kind resourceKey = false := by
      rw [Bool.eq_false_iff]
      intro h
      obtain ⟨spec', hspec', hparent'⟩ := matchesParent_iff.mp h
      rw [hspec] at hspec'
      exact hparent (Option.some.inj hspec' ▸ hparent')
    have hnone : (if r.kind = ruleVersionKind ∧ spec.parent = parentOf kind resourceKey then
        some spec.toVersion else none) = none := if_neg fun h => hparent h.2
    rw [hnone, hmatches]
    split_ifs with hother hincluded
    · rfl
    · rfl
    · exact absurd rfl hincluded

/-- Objects that hold records give the records of the parent among them. -/
theorem versionsFromIndexObjects_eq {objs : List RuleVersionResource}
    (h : ∀ r ∈ objs, r.kind = ruleVersionKind ∧ ∃ spec, r.spec = some spec)
    (kind resourceKey specContext : String) :
    versionsFromIndexObjects objs kind resourceKey true specContext =
      .ok (objs.filterMap (recordOf (parentOf kind resourceKey))) := by
  have hmapM : (objs.mapM fun obj => versionFromObject obj kind resourceKey true specContext) =
      .ok (objs.map (recordOf (parentOf kind resourceKey))) := by
    refine mapM_eq_ok fun r hr => ?_
    obtain ⟨hkind, spec, hspec⟩ := h r hr
    exact versionFromObject_eq hkind hspec
  unfold versionsFromIndexObjects
  rw [hmapM]
  show Except.ok (objs.map (recordOf (parentOf kind resourceKey))).reduceOption = _
  rw [List.reduceOption, List.filterMap_map]
  rfl

section Store

variable {S : Type}

/-- A store of rule versions. -/
structure VersionStore (S : Type) extends LawfulStore (Option RuleVersion) S where
  kind_eq : kind = ruleVersionKind
  indexers_eq : indexers = ruleVersionIndexers

theorem indexable_ruleVersion (r : RuleVersionResource) :
    Memory.Indexer.indexable ruleVersionIndexers r = true := by
  have hsome : (byParentRule r).isSome = true := by
    unfold byParentRule
    split_ifs
    · cases r.spec with
      | none => rfl
      | some spec => rfl
    · rfl
  show ((byParentRule r).isSome && (true && true)) = true
  rw [hsome]
  rfl

/-- The memory store of rule versions. -/
def memoryVersionStore : VersionStore (Memory.ResourceStore (Option RuleVersion)) where
  toLawfulStore :=
    memoryStore ruleVersionKind ruleVersionIndexers fun r _ => indexable_ruleVersion r
  kind_eq := rfl
  indexers_eq := rfl

/-- The database store of rule versions. -/
def gormVersionStore (ord : Gorm.RowOrder) : VersionStore (Gorm.DB (Option RuleVersion)) where
  toLawfulStore := gormStore ⟨ruleVersionKind, ruleVersionIndexers⟩ ord
  kind_eq := rfl
  indexers_eq := rfl

variable {st : VersionStore S} {s : S}

/-- The records of a parent among what the index returns are those among what is stored. -/
theorem filterMap_recordOf_perm {out stored : List RuleVersionResource} (hout : out.Nodup)
    (hstored : stored.Nodup) {kind resourceKey : String}
    (hmem : ∀ r, r ∈ out ↔ r ∈ stored ∧
      buildParentIndexKey kind resourceKey ∈ ruleVersionIndexers.values byParentRuleIndexName r) :
    (out.filterMap (recordOf (parentOf kind resourceKey))).Perm
      (stored.filterMap (recordOf (parentOf kind resourceKey))) := by
  classical
  have hperm : out.Perm (stored.filter fun r => buildParentIndexKey kind resourceKey ∈
      ruleVersionIndexers.values byParentRuleIndexName r) := by
    refine (List.perm_ext_iff_of_nodup hout (hstored.filter _)).mpr fun r => ?_
    rw [hmem, List.mem_filter, decide_eq_true_eq]
  refine (hperm.filterMap _).trans ?_
  rw [List.filterMap_filter]
  -- A resource that is not indexed under the parent holds no record of it.
  have hsame : ∀ r, (if (decide (buildParentIndexKey kind resourceKey ∈
      ruleVersionIndexers.values byParentRuleIndexName r)) = true then
        recordOf (parentOf kind resourceKey) r else none) =
      recordOf (parentOf kind resourceKey) r := by
    intro r
    split_ifs with hindexed
    · rfl
    · cases hrecord : recordOf (parentOf kind resourceKey) r with
      | none => rfl
      | some v =>
        obtain ⟨spec, hspec, -⟩ := recordOf_eq_some_iff.mp hrecord
        exact absurd (decide_eq_true (indexed_of_record hspec)) hindexed
  simp only [hsame]
  exact .refl _

/-- The numbers of the parent's records are distinct. -/
def Numbered (p : Parent) (stored : List RuleVersionResource) : Prop :=
  ((stored.filterMap (recordOf p)).map Version.versionNo).Nodup

theorem Numbered.descending {p : Parent} {stored : List RuleVersionResource}
    (h : Numbered p stored) : Descending (history p stored) :=
  ascending_sortBy (nodup_newestFirst_iff.mpr h)

/-- The records of a parent, in any order, are sorted to its history, if their numbers are distinct,
and are an error otherwise. -/
theorem validateAndSortVersions_of_perm {p : Parent} {stored : List RuleVersionResource}
    {versions : List Version} (hperm : versions.Perm (stored.filterMap (recordOf p)))
    (kind resourceKey : String) :
    Numbered p stored ∧ validateAndSortVersions kind resourceKey versions = .ok (history p stored) ∨
      ¬ Numbered p stored ∧ ∃ e, validateAndSortVersions kind resourceKey versions = .error e := by
  have hnumbers : (versions.map Version.versionNo).Nodup ↔ Numbered p stored :=
    (hperm.map Version.versionNo).nodup_iff
  unfold validateAndSortVersions
  cases hduplicate : firstDuplicate [] (versions.map Version.versionNo) with
  | some n =>
    refine .inr ⟨fun hnumbered => ?_, _, rfl⟩
    have hnone :=
      firstDuplicate_eq_none_iff.mpr ⟨hnumbers.mpr hnumbered, fun _ _ => List.not_mem_nil⟩
    rw [hduplicate] at hnone
    cases hnone
  | none =>
    have hnumbered := (firstDuplicate_eq_none_iff.mp hduplicate).1
    refine .inl ⟨hnumbers.mp hnumbered, congrArg Except.ok ?_⟩
    -- Both sorted lists descend and have the same members.
    refine eq_of_ascending (ascending_sortBy (nodup_newestFirst_iff.mpr hnumbered))
      (hnumbers.mp hnumbered).descending fun v => ?_
    rw [history, mem_sortBy, mem_sortBy, hperm.mem_iff]

/-- What the code makes of the index's answer: the history of the parent, if its numbers are
distinct, and an error otherwise. -/
theorem historyOf_byIndex (hvalid : st.valid s) (hexact : st.exact s) (kind resourceKey : String) :
    ∃ out, st.byIndex s byParentRuleIndexName (buildParentIndexKey kind resourceKey) = .ok out ∧
      (Numbered (parentOf kind resourceKey) (st.stored s).items ∧ historyOf kind resourceKey out =
          .ok (.ofVersions (history (parentOf kind resourceKey) (st.stored s).items)) ∨
        ¬ Numbered (parentOf kind resourceKey) (st.stored s).items ∧
          ∃ e, historyOf kind resourceKey out = .error e) := by
  have hregistered : byParentRuleIndexName ∈ st.indexers := by
    rw [st.indexers_eq]
    exact AList.lookup_isSome.mp rfl
  obtain ⟨out, hout, hnodup, hmem⟩ := st.byIndex_spec s byParentRuleIndexName
    (buildParentIndexKey kind resourceKey) hvalid hexact hregistered
  rw [st.indexers_eq] at hmem
  have hversions := versionsFromIndexObjects_eq (fun r hr => record_of_indexed ((hmem r).mp hr).2)
    kind resourceKey ("parent " ++ buildParentIndexKey kind resourceKey)
  have hperm := filterMap_recordOf_perm hnodup (st.stored s).nodup.of_map hmem
  have hhistory : historyOf kind resourceKey out = (validateAndSortVersions kind resourceKey
      (out.filterMap (recordOf (parentOf kind resourceKey)))).map .ofVersions := by
    unfold historyOf
    rw [hversions]
    rfl
  refine ⟨out, hout, ?_⟩
  rw [hhistory]
  rcases validateAndSortVersions_of_perm hperm kind resourceKey with
    ⟨hnumbered, hsorted⟩ | ⟨hduplicate, e, herror⟩
  · rw [hsorted]
    exact .inl ⟨hnumbered, rfl⟩
  · rw [herror]
    exact .inr ⟨hduplicate, e, rfl⟩

end Store

end DubboAdmin.Versioning
