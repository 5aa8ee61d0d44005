import DubboAdmin.Console.RuleVersion
import DubboAdmin.Versioning.Ledger

/-!
# Reading the history of rules

What is recorded for a rule is read in three ways. `List` of `pkg/core/versioning/service.go` asks
the index for the versions of the parent, `Get` asks for the key that is built from the parent and
the number, and `ListLatestVersions` of the adapter walks over the whole store and groups what it
finds by resource key. On a store that calls of `InsertVersion` have filled, the three ways agree
(`read_paths_agree`), since every record lies under the key of its own parent and number
(`WellKept`). Only `List` and `Get` derive the flag `IsLatestRecorded`.
-/

namespace DubboAdmin.Console

open Versioning
open Strings (parseInt64)

variable {σ S α β : Type}

/-! ## The service -/

/-- What `List` returns. -/
structure ListResult where
  items : List Version
  total : ℕ
  latestRecordedVersionNo : ℤ
  latestRecordedDeleted : Bool

/-- One side of a comparison. -/
structure DiffSide where
  versionNo : ℤ
  specJSON : String

/-- A comparison of two versions. -/
structure DiffResult where
  left : DiffSide
  right : DiffSide

/-- One side of a diff. -/
def diffSide (v : Version) : DiffSide := ⟨v.versionNo, v.specJSON⟩

def errVersionNotFound : Failure := GetError.versionNotFound.toFailure

def list (svc : Service) (ruleRef : RuleRef) : RuleM σ ListResult := do
  ensureAvailable svc
  let snapshot ← historySnapshot ruleRef.kind ruleRef.resourceKey
  pure {
    items := snapshot.versions
    total := snapshot.versions.length
    latestRecordedVersionNo := (snapshot.head.map Version.versionNo).getD 0
    latestRecordedDeleted := snapshot.deleted }

/-- The version after the one with the number, in the loop of `diffRight`. -/
def versionAfter (versionNo : ℤ) : List Version → Option Version
  | [] => none
  | v :: rest => if v.versionNo ≠ versionNo then versionAfter versionNo rest else rest.head?

def diffRight (svc : Service) (ruleRef : RuleRef) (versionNo : ℤ) (against : String) :
    RuleM σ Version :=
  if against = "previous" then do
    -- `ListVersions` of the adapter are the versions of the snapshot
    let snapshot ← historySnapshot ruleRef.kind ruleRef.resourceKey
    match versionAfter versionNo (sortBy newestFirst snapshot.versions) with
    | none => throw errVersionNotFound
    | some version => pure version
  else if against = "" ∨ against = "current" then
    throw (.err ("[InvalidArgument], current diff requires live ResourceManager state and is " ++
      "implemented by the console service"))
  else match parseInt64 against with
    | none => throw (.err
        "[InvalidArgument], against must be 'current', 'previous', or a version number")
    | some againstVersionNo =>
      if againstVersionNo ≤ 0 then throw (.err
        "[InvalidArgument], against must be 'current', 'previous', or a version number")
      else get svc ruleRef againstVersionNo

def diffHistoryVersions (svc : Service) (ruleRef : RuleRef) (versionNo : ℤ) (against : String) :
    RuleM σ DiffResult := do
  ensureAvailable svc
  let left ← get svc ruleRef versionNo
  let right ← diffRight svc ruleRef versionNo against
  pure ⟨diffSide left, diffSide right⟩

/-! ## The latest versions of a kind -/

/-- A version store whose resources can be fetched by their keys. -/
structure ScanStore (S : Type) extends LedgerStore S where
  getByKeys : S → List String → Except Failure (List RuleVersionResource)
  /-- `GetByKeys` of the keys that `ListKeys` lists finds what is stored. -/
  scan : ∀ s, ∃ objs, getByKeys s (listKeys s) = .ok objs ∧ objs.Perm (stored s).items

/-- The memory store of rule versions. -/
def memoryScanStore : ScanStore (Memory.ResourceStore (Option RuleVersion)) where
  toLedgerStore := memoryLedgerStore
  getByKeys rs keys := .ok (rs.getByKeys keys)
  scan rs := by
    refine ⟨_, rfl, ?_⟩
    have hall : rs.getByKeys rs.stored.keys = rs.stored.items := by
      show (rs.stored.items.map Resource.resourceKey).filterMap rs.stored.get? = _
      rw [List.filterMap_map]
      refine (List.filterMap_congr fun r hr => ?_).trans List.filterMap_some
      exact Keyed.get?_key hr
    show (rs.getByKeys rs.stored.keys).Perm _
    rw [hall]
    exact .refl _

/-- The database store of rule versions. -/
def gormScanStore (ord : Gorm.RowOrder) : ScanStore (Gorm.DB (Option RuleVersion)) where
  toLedgerStore := gormLedgerStore ord
  getByKeys db keys := .ok (Gorm.getByKeys ord db keys)
  scan db := by
    refine ⟨_, rfl, ?_⟩
    refine (List.perm_ext_iff_of_nodup (Gorm.nodup_getByKeys _).of_map
      db.resources.nodup.of_map).mpr fun r => ?_
    rw [Gorm.mem_getByKeys, and_iff_left_iff_imp]
    intro hr
    exact (ord.perm _).mem_iff.mpr (List.mem_map_of_mem hr)

/-- `versionsFromResources`, the loop of `versionsFromIndexObjects` over resources. -/
def versionsFromResources (objs : List RuleVersionResource) (kind resourceKey : String)
    (filterParent : Bool) (specContext : String) : Except Failure (List Version) :=
  versionsFromIndexObjects objs kind resourceKey filterParent specContext

/-- One round of the loop over `byParent` in `ListLatestVersions`: the first version of the group,
once it is sorted. -/
def latestOfGroup (kind : String) (versions : List Version) (resourceKey : String) :
    Except Failure (Option Version) := do
  let sorted ← validateAndSortVersions kind resourceKey
    (versions.filter fun version => version.resourceKey = resourceKey)
  pure sorted.head?

/-- The order of the latest versions: by resource key, and the highest number first. -/
def latestOrder (v : Version) : String ×ₗ ℤ := toLex (v.resourceKey, newestFirst v)

def listLatestVersions (st : ScanStore S) (walk : WalkOrder String) (s : S) (kind : String) :
    Except Failure (List Version) := do
  let objs ← st.getByKeys s (st.listKeys s)
  let versions ← versionsFromResources objs kind "" false ""
  let latest ← (walk.order (versions.map Version.resourceKey).dedup).mapM
    (latestOfGroup kind versions)
  pure (sortBy latestOrder latest.reduceOption)

/-! ## What is read -/

/-- A version as it is recorded, without the flag that is derived from the history. -/
def entry (v : Version) : Version := { v with isLatestRecorded := false }

/-- A version of a history, with the flag that is derived from it. -/
def flagged (versions : List Version) (v : Version) : Version :=
  { v with isLatestRecorded := versions.head?.map Version.versionNo = some v.versionNo }

/-- What a call of the service returns, where no step fails. -/
def answer (st : LedgerStore S) (s : RuleState σ S) (p : RuleM σ α) : Except Failure α :=
  (Prog.exec (ruleStep st) p.run s).1

/-- The versions of a rule, as the service reads them. -/
structure ReadsAs (st : LedgerStore S) (svc : Service) (s : RuleState σ S) (ruleRef : RuleRef)
    (items : List Version) : Prop where
  list : ∃ result, answer st s (list svc ruleRef) = .ok result ∧ result.items = items
  recorded : items.map entry =
    history (parentOf ruleRef.kind ruleRef.resourceKey) (st.stored s.ledger).items
  descending : Descending items
  /-- The first one is marked as the latest, and no other. -/
  latest : ∀ v ∈ items, v.isLatestRecorded = true ↔ items.head? = some v
  /-- `Get` returns the one with the number, if there is one, and fails otherwise. -/
  get : ∀ n v, answer st s (get svc ruleRef n) = .ok v ↔ v ∈ items ∧ v.versionNo = n
  /-- A diff with `previous` compares a version with the one of the greatest lower number. -/
  previous : ∀ n result, answer st s (diffHistoryVersions svc ruleRef n "previous") = .ok result ↔
    ∃ left ∈ items, left.versionNo = n ∧ ∃ right ∈ items, right.versionNo < n ∧
      (∀ v ∈ items, v.versionNo < n → v.versionNo ≤ right.versionNo) ∧
      result = ⟨diffSide left, diffSide right⟩

/-- The latest versions of a kind, as the adapter reads them: one for each parent that `List` finds
a version of, and no other. -/
structure LatestAre (st : ScanStore S) (walk : WalkOrder String) (svc : Service) (s : RuleState σ S)
    (kind : String) (latest : List Version) : Prop where
  listed : listLatestVersions st walk s.ledger kind = .ok latest
  distinct : (latest.map Version.resourceKey).Nodup
  mem_iff : ∀ v, v ∈ latest ↔ ∃ ruleRef : RuleRef, ruleRef.kind = kind ∧
    ∃ items first, ReadsAs st.toLedgerStore svc s ruleRef items ∧ items.head? = some first ∧
      v = entry first

section Lists

variable {versions : List Version} {v : Version} {n : ℤ}

theorem eq_of_versionNo_eq (h : Descending versions) {w : Version} (hv : v ∈ versions)
    (hw : w ∈ versions) (hnumber : v.versionNo = w.versionNo) : v = w :=
  List.inj_on_of_nodup_map (Ascending.nodup h) hv hw (congrArg Neg.neg hnumber)

theorem descending_map_flagged (h : Descending versions) :
    Descending (versions.map (flagged versions)) :=
  List.pairwise_map.mpr h

/-- A snapshot marks the first version of a descending history. -/
theorem versions_historySnapshotFromState (h : Descending versions)
    (hentry : ∀ v ∈ versions, entry v = v) :
    (historySnapshotFromState (.ofVersions versions)).versions =
      versions.map (flagged versions) := by
  cases versions with
  | nil => rfl
  | cons head versions =>
    obtain ⟨hbelow, -⟩ := List.pairwise_cons.mp h
    have hhead : flagged (head :: versions) head = { head with isLatestRecorded := true } := by
      simp [flagged]
    have hrest : versions.map (flagged (head :: versions)) = versions := by
      refine (List.map_congr_left fun v hv => ?_).trans (List.map_id versions)
      have hlt : -head.versionNo < -v.versionNo := hbelow v hv
      have hne : head.versionNo ≠ v.versionNo := by omega
      have hflag : flagged (head :: versions) v = entry v := by
        simp [flagged, entry, hne]
      rw [hflag]
      exact hentry v (List.mem_cons_of_mem _ hv)
    rw [List.map_cons, hhead, hrest]
    rfl

theorem head_historySnapshotFromState (versions : List Version) :
    (historySnapshotFromState (.ofVersions versions)).head = versions.head? := by
  cases versions with
  | nil => rfl
  | cons head versions => rfl

/-- The flag tells the first version of a descending history from the others. -/
theorem isLatestRecorded_flagged (h : Descending versions)
    (hv : v ∈ versions.map (flagged versions)) :
    v.isLatestRecorded = true ↔ (versions.map (flagged versions)).head? = some v := by
  obtain ⟨w, hw, rfl⟩ := List.mem_map.mp hv
  have hflag : (flagged versions w).isLatestRecorded = true ↔
      versions.head?.map Version.versionNo = some w.versionNo := decide_eq_true_iff
  rw [hflag, List.head?_map, Option.map_eq_some_iff, Option.map_eq_some_iff]
  constructor
  · rintro ⟨first, hfirst, hnumber⟩
    have hsame := eq_of_versionNo_eq h (List.mem_of_head? hfirst) hw hnumber
    exact ⟨first, hfirst, hsame ▸ rfl⟩
  · rintro ⟨first, hfirst, hsame⟩
    have hnumber : (flagged versions first).versionNo = (flagged versions w).versionNo :=
      congrArg Version.versionNo hsame
    exact ⟨first, hfirst, hnumber⟩

/-- In a descending history, the version after the one with the number is the one of the greatest
lower number. -/
theorem versionAfter_eq_some_iff (h : Descending versions) :
    versionAfter n versions = some v ↔ (∃ w ∈ versions, w.versionNo = n) ∧ v ∈ versions ∧
      v.versionNo < n ∧ ∀ w ∈ versions, w.versionNo < n → w.versionNo ≤ v.versionNo := by
  induction versions with
  | nil => simp [versionAfter]
  | cons first rest ih =>
    obtain ⟨hbelow, hdescending⟩ := List.pairwise_cons.mp h
    have hlt : ∀ w ∈ rest, w.versionNo < first.versionNo := fun w hw =>
      neg_lt_neg_iff.mp (hbelow w hw)
    unfold versionAfter
    split_ifs with hfirst
    · -- The number is further down, so that the first version is above it.
      rw [ih hdescending]
      simp only [List.mem_cons, exists_eq_or_imp, forall_eq_or_imp]
      constructor
      · rintro ⟨⟨w, hw, hnumber⟩, hv, hvn, hgreatest⟩
        have hwlt := hlt w hw
        exact ⟨.inr ⟨w, hw, hnumber⟩, .inr hv, hvn, fun hfirstlt => by omega, hgreatest⟩
      · rintro ⟨hfound | ⟨w, hw, hnumber⟩, hv, hvn, hgreatest, hrest⟩
        · exact absurd hfound hfirst
        · have hwlt := hlt w hw
          rcases hv with rfl | hv
          · omega
          · exact ⟨⟨w, hw, hnumber⟩, hv, hvn, hrest⟩
    · -- The first version has the number, and those below it are the rest.
      have hfirst : first.versionNo = n := not_not.mp hfirst
      subst hfirst
      cases rest with
      | nil =>
        simp only [List.head?_nil, List.mem_singleton]
        constructor
        · intro hnone
          cases hnone
        · rintro ⟨-, rfl, hself, -⟩
          exact absurd hself (lt_irrefl _)
      | cons second rest =>
        obtain ⟨hnext, -⟩ := List.pairwise_cons.mp hdescending
        have hle : ∀ w ∈ second :: rest, w.versionNo ≤ second.versionNo := by
          intro w hw
          rcases List.mem_cons.mp hw with rfl | hw
          · exact le_rfl
          · exact (neg_lt_neg_iff.mp (hnext w hw)).le
        rw [List.head?_cons, Option.some_inj]
        constructor
        · rintro rfl
          refine ⟨⟨first, List.mem_cons_self, rfl⟩, List.mem_cons_of_mem _ List.mem_cons_self,
            hlt second List.mem_cons_self, fun w hw hwlt => ?_⟩
          rcases List.mem_cons.mp hw with rfl | hw
          · exact absurd hwlt (lt_irrefl _)
          · exact hle w hw
        · rintro ⟨-, hv, hvn, hgreatest⟩
          have hv' : v ∈ second :: rest := by
            rcases List.mem_cons.mp hv with rfl | hv
            · exact absurd hvn (lt_irrefl _)
            · exact hv
          have hsecond := hgreatest second (List.mem_cons_of_mem _ List.mem_cons_self)
            (hlt second List.mem_cons_self)
          have hnumber : second.versionNo = v.versionNo := le_antisymm hsecond (hle v hv')
          exact eq_of_versionNo_eq hdescending List.mem_cons_self hv' hnumber

end Lists

/-! ## The adapter's reads -/

section Adapter

variable {st : VersionStore S} {s : S} {T : Type} (now : T → ℤ × T)
  {f : T → (o : LedgerOp) → o.Res × T} {t : T}

/-- The history of a rule is read as it is. -/
theorem exec_historySnapshot {x : RuleState σ T}
    (hread : ∀ n v, f x.ledger (.byIndex n v) = (st.byIndex s n v, x.ledger)) (hvalid : st.valid s)
    (hexact : st.exact s) (hkept : WellKept (st.stored s)) (kind resourceKey : String) :
    Prog.exec (stepOver now f) (historySnapshot kind resourceKey : RuleM σ _).run x =
      (.ok (historySnapshotFromState
        (.ofVersions (history (parentOf kind resourceKey) (st.stored s).items))), x) := by
  have hprog : Prog.exec f (historySnapshotProg kind resourceKey) x.ledger =
      (.ok (historySnapshotFromState
        (.ofVersions (history (parentOf kind resourceKey) (st.stored s).items))), x.ledger) := by
    unfold historySnapshotProg
    rw [Prog.exec_bind, exec_historyState_of_read hread hvalid hexact hkept kind resourceKey]
    rfl
  show ((Prog.exec f (historySnapshotProg kind resourceKey) x.ledger).1,
    { x with ledger := (Prog.exec f (historySnapshotProg kind resourceKey) x.ledger).2 }) = _
  rw [hprog]

/-- The version under the key is the one of the history with the number, where `GetByKey` is
answered by the store. -/
theorem exec_getVersionProg_of_read (hread : ∀ key, f t (.getByKey key) = (st.getByKey s key, t))
    (hkept : WellKept (st.stored s)) (kind resourceKey : String) (n : ℤ) :
    ∃ found, Prog.exec f (getVersionProg kind resourceKey n) t = (found, t) ∧
      ∀ v, found = .ok v ↔
        v ∈ history (parentOf kind resourceKey) (st.stored s).items ∧ v.versionNo = n := by
  have hresource := exec_getVersionResourceForRule_of_read hread kind resourceKey n
  unfold getVersionProg
  rw [Prog.exec_bind, hresource]
  cases hcheck : checkVersionResource kind resourceKey n
      ((st.stored s).get? (buildVersionResourceKey kind resourceKey n)) with
  | error e =>
    refine ⟨.error e.toFailure, rfl, fun v => ⟨nofun, ?_⟩⟩
    rintro ⟨hv, rfl⟩
    -- A version of the history passes the checks.
    obtain ⟨r, hr, spec, hrecord, rfl⟩ := mem_history.mp hv
    have hok := checkVersionResource_of_kept hr (hkept.kept hr hrecord) hrecord.ofParent
    have hsame : spec.toVersion.versionNo = spec.versionNo := rfl
    rw [hsame, hok] at hcheck
    cases hcheck
  | ok rv =>
    obtain ⟨hget, hkind, spec, hspec, hparent, hnumber⟩ := checkVersionResource_eq_ok hcheck
    have hrv := (Keyed.get?_eq_some_iff.mp hget).1
    refine ⟨.ok spec.toVersion, ?_, fun v => ?_⟩
    · show (protoToVersion rv.spec, t) = _
      rw [hspec]
      rfl
    · rw [Except.ok.injEq]
      constructor
      · rintro rfl
        exact ⟨mem_history.mpr ⟨rv, hrv, spec, ⟨hkind, hspec, hparent⟩, rfl⟩, hnumber⟩
      · rintro ⟨hv, hvnumber⟩
        have hspec' := mem_history.mpr ⟨rv, hrv, spec, ⟨hkind, hspec, hparent⟩, rfl⟩
        exact eq_of_versionNo_eq (hkept.descending _) hspec' hv (hnumber.trans hvnumber.symm)

/-- The version that is read under a key is the one of the history with the number. -/
theorem exec_getVersion_history {x : RuleState σ T}
    (hread : ∀ key, f x.ledger (.getByKey key) = (st.getByKey s key, x.ledger))
    (hkept : WellKept (st.stored s)) (kind resourceKey : String) (n : ℤ) :
    ∃ found, Prog.exec (stepOver now f) (getVersion kind resourceKey n : RuleM σ _).run x =
      (found, x) ∧ ∀ v, found = .ok v ↔
        v ∈ history (parentOf kind resourceKey) (st.stored s).items ∧ v.versionNo = n := by
  obtain ⟨found, hprog, hfound⟩ := exec_getVersionProg_of_read hread hkept kind resourceKey n
  refine ⟨found, ?_, hfound⟩
  show ((Prog.exec f (getVersionProg kind resourceKey n) x.ledger).1,
    { x with ledger := (Prog.exec f (getVersionProg kind resourceKey n) x.ledger).2 }) = _
  rw [hprog]

end Adapter

/-! ## One rule -/

section Rule

variable {st : LedgerStore S} {svc : Service} {s : RuleState σ S}

/-- The version store is in a state of its own, with an exact index and well-kept records. -/
structure Readable (st : LedgerStore S) (s : S) : Prop where
  valid : st.valid s
  exact : st.exact s
  kept : WellKept (st.stored s)

theorem entry_of_mem_history {p : Parent} {stored : List RuleVersionResource} {v : Version}
    (hv : v ∈ history p stored) : entry v = v := by
  obtain ⟨r, -, spec, -, rfl⟩ := mem_history.mp hv
  rfl

/-- A program that returns `r` and changes nothing. -/
def Reads (st : LedgerStore S) (s : RuleState σ S) (p : RuleM σ α) (r : Except Failure α) : Prop :=
  Prog.exec (ruleStep st) p.run s = (r, s)

theorem Reads.answer {p : RuleM σ α} {r : Except Failure α} (h : Reads st s p r) :
    answer st s p = r :=
  congrArg Prod.fst h

theorem Reads.bind {p : RuleM σ α} {a : α} {k : α → RuleM σ β} {r : Except Failure β}
    (h : Reads st s p (.ok a)) (hk : Reads st s (k a) r) : Reads st s (p >>= k) r :=
  (Prog.exec_bind_ok h k).trans hk

theorem Reads.bind_error {p : RuleM σ α} {e : Failure} (h : Reads st s p (.error e))
    (k : α → RuleM σ β) : Reads st s (p >>= k) (.error e) :=
  Prog.exec_bind_error h k

theorem reads_ensureAvailable (hsvc : svc.hasStore = true) :
    Reads st s (ensureAvailable svc) (.ok ()) := by
  unfold ensureAvailable
  rw [if_pos hsvc]
  rfl

/-- The versions of a rule in the version store. -/
def recordedOf (st : LedgerStore S) (s : RuleState σ S) (ruleRef : RuleRef) : List Version :=
  history (parentOf ruleRef.kind ruleRef.resourceKey) (st.stored s.ledger).items

/-- The versions of a rule, with their flags. -/
def itemsOf (st : LedgerStore S) (s : RuleState σ S) (ruleRef : RuleRef) : List Version :=
  (recordedOf st s ruleRef).map (flagged (recordedOf st s ruleRef))

theorem descending_recordedOf (h : Readable st s.ledger) (ruleRef : RuleRef) :
    Descending (recordedOf st s ruleRef) :=
  h.kept.descending _

theorem descending_itemsOf (h : Readable st s.ledger) (ruleRef : RuleRef) :
    Descending (itemsOf st s ruleRef) :=
  descending_map_flagged (descending_recordedOf h ruleRef)

theorem reads_historySnapshot (h : Readable st s.ledger) (ruleRef : RuleRef) :
    ∃ snapshot, Reads st s (historySnapshot ruleRef.kind ruleRef.resourceKey) (.ok snapshot) ∧
      snapshot.versions = itemsOf st s ruleRef ∧
      snapshot.head = (recordedOf st s ruleRef).head? :=
  ⟨_, exec_historySnapshot _ (fun _ _ => rfl) h.valid h.exact h.kept ruleRef.kind
      ruleRef.resourceKey,
    versions_historySnapshotFromState (descending_recordedOf h ruleRef)
      fun _ hv => entry_of_mem_history hv,
    head_historySnapshotFromState _⟩

theorem reads_list (hsvc : svc.hasStore = true) (h : Readable st s.ledger) (ruleRef : RuleRef) :
    ∃ result, Reads st s (list svc ruleRef) (.ok result) ∧
      result.items = itemsOf st s ruleRef := by
  obtain ⟨snapshot, hsnapshot, hversions, -⟩ := reads_historySnapshot h ruleRef
  exact ⟨_, (reads_ensureAvailable hsvc).bind (hsnapshot.bind rfl), hversions⟩

/-- `Get` returns the version with the number. -/
theorem reads_get (hsvc : svc.hasStore = true) (h : Readable st s.ledger) (ruleRef : RuleRef)
    (n : ℤ) :
    ∃ found, Reads st s (get svc ruleRef n) found ∧
      ∀ v, found = .ok v ↔ v ∈ itemsOf st s ruleRef ∧ v.versionNo = n := by
  have hread : ∀ key, ledgerStep st s.ledger (.getByKey key) =
      (st.getByKey s.ledger key, s.ledger) := fun _ => rfl
  obtain ⟨found, hgetVersion, hfound⟩ := exec_getVersion_history (fun l => (1, l)) hread h.kept
    ruleRef.kind ruleRef.resourceKey n
  obtain ⟨snapshot, hsnapshot, -, hhead⟩ := reads_historySnapshot h ruleRef
  cases found with
  | error e =>
    refine ⟨.error e, (reads_ensureAvailable hsvc).bind (Reads.bind_error hgetVersion _),
      fun v => ⟨nofun, ?_⟩⟩
    rintro ⟨hv, hnumber⟩
    obtain ⟨w, hw, rfl⟩ := List.mem_map.mp hv
    have hok := (hfound w).mpr ⟨hw, hnumber⟩
    cases hok
  | ok w =>
    obtain ⟨hw, hnumber⟩ := (hfound w).mp rfl
    have hget : Reads st s (get svc ruleRef n) (.ok (flagged (recordedOf st s ruleRef) w)) := by
      refine (reads_ensureAvailable hsvc).bind (Reads.bind hgetVersion (hsnapshot.bind ?_))
      rw [hhead]
      -- There is a first version, since there is one at all.
      cases hfirst : (recordedOf st s ruleRef).head? with
      | none =>
        have hnil : recordedOf st s ruleRef = [] := List.head?_eq_none_iff.mp hfirst
        unfold recordedOf at hnil
        rw [hnil] at hw
        cases hw
      | some first =>
        unfold flagged
        rw [hfirst]
        simp only [Option.map_some, Option.some_inj, eq_comm]
        rfl
    refine ⟨_, hget, fun v => ?_⟩
    constructor
    · intro hv
      obtain rfl : flagged (recordedOf st s ruleRef) w = v := Except.ok.inj hv
      exact ⟨List.mem_map_of_mem hw, hnumber⟩
    · rintro ⟨hv, hvnumber⟩
      obtain ⟨w', hw', rfl⟩ := List.mem_map.mp hv
      have hsame : w = w' := eq_of_versionNo_eq (descending_recordedOf h ruleRef) hw hw'
        (hnumber.trans hvnumber.symm)
      rw [hsame]

/-- The right side of a diff with `previous` is the version after the one with the number. -/
theorem reads_diffRight_previous (svc : Service) (h : Readable st s.ledger) (ruleRef : RuleRef)
    (n : ℤ) :
    ∃ found, Reads st s (diffRight svc ruleRef n "previous") found ∧
      ∀ v, found = .ok v ↔ versionAfter n (itemsOf st s ruleRef) = some v := by
  obtain ⟨snapshot, hsnapshot, hversions, -⟩ := reads_historySnapshot h ruleRef
  have hitems := descending_itemsOf h ruleRef
  -- The list is sorted already.
  have hsort : sortBy newestFirst snapshot.versions = itemsOf st s ruleRef := by
    rw [hversions]
    exact eq_of_ascending (ascending_sortBy (Ascending.nodup hitems)) hitems fun v => mem_sortBy
  have hdiff : diffRight svc ruleRef n "previous" = (do
      let snapshot ← historySnapshot ruleRef.kind ruleRef.resourceKey
      match versionAfter n (sortBy newestFirst snapshot.versions) with
      | none => throw errVersionNotFound
      | some version => pure version : RuleM σ Version) := if_pos rfl
  rw [hdiff]
  cases hafter : versionAfter n (itemsOf st s ruleRef) with
  | none =>
    refine ⟨.error errVersionNotFound, hsnapshot.bind ?_, fun v => ⟨nofun, nofun⟩⟩
    rw [hsort, hafter]
    rfl
  | some version =>
    refine ⟨.ok version, hsnapshot.bind ?_, fun v => ?_⟩
    · rw [hsort, hafter]
      rfl
    · rw [Except.ok.injEq, Option.some_inj]

/-- A diff with `previous` compares the version with the number and the one after it. -/
theorem reads_diffHistoryVersions_previous (hsvc : svc.hasStore = true) (h : Readable st s.ledger)
    (ruleRef : RuleRef) (n : ℤ) :
    ∃ found, Reads st s (diffHistoryVersions svc ruleRef n "previous") found ∧
      ∀ result, found = .ok result ↔
        ∃ left, (left ∈ itemsOf st s ruleRef ∧ left.versionNo = n) ∧
          ∃ right, versionAfter n (itemsOf st s ruleRef) = some right ∧
            result = ⟨diffSide left, diffSide right⟩ := by
  obtain ⟨left, hleft, hleft_iff⟩ := reads_get hsvc h ruleRef n
  obtain ⟨right, hright, hright_iff⟩ := reads_diffRight_previous svc h ruleRef n
  simp only [← hleft_iff, ← hright_iff]
  cases left with
  | error e =>
    refine ⟨.error e, (reads_ensureAvailable hsvc).bind (hleft.bind_error _), fun result => ?_⟩
    exact ⟨nofun, nofun⟩
  | ok left =>
    cases right with
    | error e =>
      refine ⟨.error e, (reads_ensureAvailable hsvc).bind (hleft.bind (hright.bind_error _)),
        fun result => ⟨nofun, ?_⟩⟩
      rintro ⟨left', -, right', hright', -⟩
      cases hright'
    | ok right =>
      refine ⟨.ok ⟨diffSide left, diffSide right⟩,
        (reads_ensureAvailable hsvc).bind (hleft.bind (hright.bind rfl)), fun result => ?_⟩
      simp [eq_comm]

/-- The service reads the versions of every rule. -/
theorem readsAs_itemsOf (hsvc : svc.hasStore = true) (h : Readable st s.ledger)
    (ruleRef : RuleRef) : ReadsAs st svc s ruleRef (itemsOf st s ruleRef) := by
  have hdescending := descending_itemsOf h ruleRef
  refine ⟨?_, ?_, hdescending, fun v hv => ?_, fun n v => ?_, fun n result => ?_⟩
  · obtain ⟨result, hlist, hitems⟩ := reads_list hsvc h ruleRef
    exact ⟨result, hlist.answer, hitems⟩
  · unfold itemsOf
    rw [List.map_map]
    refine (List.map_congr_left fun v hv => ?_).trans (List.map_id _)
    exact entry_of_mem_history (v := v) hv
  · exact isLatestRecorded_flagged (descending_recordedOf h ruleRef) hv
  · obtain ⟨found, hget, hfound⟩ := reads_get hsvc h ruleRef n
    rw [hget.answer, hfound]
  · obtain ⟨found, hdiff, hfound⟩ := reads_diffHistoryVersions_previous hsvc h ruleRef n
    rw [hdiff.answer, hfound]
    simp only [versionAfter_eq_some_iff hdescending]
    constructor
    · rintro ⟨left, ⟨hleft, hnumber⟩, right, ⟨-, hright, hlt, hgreatest⟩, hresult⟩
      exact ⟨left, hleft, hnumber, right, hright, hlt, hgreatest, hresult⟩
    · rintro ⟨left, hleft, hnumber, right, hright, hlt, hgreatest, hresult⟩
      exact ⟨left, ⟨hleft, hnumber⟩, right, ⟨⟨left, hleft, hnumber⟩, hright, hlt, hgreatest⟩,
        hresult⟩

end Rule

/-! ## All rules of a kind -/

section Kind

variable {stored : Versions} {kind : String} {v : Version}

/-- The version that a stored resource holds for a parent of the kind, if it holds one. -/
def kindRecordOf (kind : String) (r : RuleVersionResource) : Option Version :=
  match r.spec with
  | none => none
  | some spec => if spec.parentRuleKind = kind then some spec.toVersion else none

theorem versionFromObject_of_kept {r : RuleVersionResource} {spec : RuleVersion}
    (h : Kept r spec) (kind resourceKey specContext : String) :
    versionFromObject r kind resourceKey false specContext = .ok (kindRecordOf kind r) := by
  unfold versionFromObject kindRecordOf
  rw [if_neg (not_not_intro h.ofKind), h.holds]
  dsimp only
  by_cases hkind : spec.parentRuleKind = kind
  · rw [if_neg (not_not_intro hkind), if_pos hkind]
    rfl
  · rw [if_pos hkind, if_neg hkind]

variable {objs : List RuleVersionResource}

/-- The scan finds the records of the kind. -/
theorem versionsFromResources_eq (h : ∀ r ∈ objs, ∃ spec, Kept r spec) (kind : String) :
    versionsFromResources objs kind "" false "" = .ok (objs.filterMap (kindRecordOf kind)) := by
  have hmapM : (objs.mapM fun obj => versionFromObject obj kind "" false "") =
      .ok (objs.map (kindRecordOf kind)) := by
    refine mapM_eq_ok fun r hr => ?_
    obtain ⟨spec, hkept⟩ := h r hr
    exact versionFromObject_of_kept hkept kind "" ""
  unfold versionsFromResources versionsFromIndexObjects
  rw [hmapM]
  show Except.ok (objs.map (kindRecordOf kind)).reduceOption = _
  rw [List.reduceOption, List.filterMap_map]
  rfl

variable {p : Parent}

theorem parentOf_buildResourceKey (hmesh : '/' ∉ p.mesh.toList) :
    parentOf p.kind (buildResourceKey p.mesh p.name) = p := by
  unfold parentOf extractMesh extractName
  rw [parseResourceKey_buildResourceKey hmesh]

theorem parent_of_mem_scan (h : ∀ r ∈ objs, ∃ spec, Kept r spec)
    (hv : v ∈ objs.filterMap (kindRecordOf kind)) :
    ∃ p : Parent, p.kind = kind ∧ '/' ∉ p.mesh.toList ∧
      v.resourceKey = buildResourceKey p.mesh p.name := by
  obtain ⟨r, hr, hrecord⟩ := List.mem_filterMap.mp hv
  obtain ⟨spec, hkept⟩ := h r hr
  unfold kindRecordOf at hrecord
  rw [hkept.holds] at hrecord
  dsimp only at hrecord
  split_ifs at hrecord with hkind
  obtain rfl : spec.toVersion = v := Option.some.inj hrecord
  exact ⟨spec.parent, hkind, hkept.mesh, rfl⟩

/-- The versions of the scan with the resource key of a parent are its records. -/
theorem filter_scan (h : ∀ r ∈ objs, ∃ spec, Kept r spec) (hmesh : '/' ∉ p.mesh.toList) :
    (objs.filterMap (kindRecordOf p.kind)).filter
        (fun version => version.resourceKey = buildResourceKey p.mesh p.name) =
      objs.filterMap (recordOf p) := by
  rw [List.filter_filterMap]
  refine List.filterMap_congr fun r hr => ?_
  obtain ⟨spec, hkept⟩ := h r hr
  unfold kindRecordOf recordOf
  rw [hkept.holds]
  dsimp only
  by_cases hparent : spec.parent = p
  · subst hparent
    have hkind : spec.parentRuleKind = spec.parent.kind := rfl
    rw [if_pos hkind, if_pos ⟨hkept.ofKind, rfl⟩]
    exact Option.filter_some_pos (decide_eq_true rfl)
  · have hnone : (if r.kind = ruleVersionKind ∧ spec.parent = p then some spec.toVersion
        else none) = none := if_neg fun hrecord => hparent hrecord.2
    rw [hnone]
    split_ifs with hkind
    · -- Another parent of the kind has another resource key.
      rw [Option.filter_some]
      refine if_neg fun hkey => hparent ?_
      rw [decide_eq_true_eq] at hkey
      obtain ⟨hsame, hname⟩ := buildResourceKey_inj hkept.mesh hmesh hkey
      obtain ⟨kind, mesh, name⟩ := p
      exact Parent.mk.injEq .. |>.mpr ⟨hkind, hsame, hname⟩
    · rfl

/-- The group of a parent gives the first version of its history. -/
theorem latestOfGroup_eq (hkept : WellKept stored) (hobjs : objs.Perm stored.items)
    (hmesh : '/' ∉ p.mesh.toList) :
    latestOfGroup p.kind (objs.filterMap (kindRecordOf p.kind)) (buildResourceKey p.mesh p.name) =
      .ok (history p stored.items).head? := by
  have hgroup := filter_scan (fun r hr => hkept r (hobjs.mem_iff.mp hr)) hmesh
  have hperm : (objs.filterMap (recordOf p)).Perm (stored.items.filterMap (recordOf p)) :=
    hobjs.filterMap _
  unfold latestOfGroup
  rw [hgroup]
  rcases validateAndSortVersions_of_perm hperm p.kind (buildResourceKey p.mesh p.name) with
    ⟨-, hsorted⟩ | ⟨hduplicate, -⟩
  · rw [hsorted]
    rfl
  · exact absurd (hkept.numbered p) hduplicate

/-- The first version of the parent that a resource key names among those of the kind. -/
def firstOf (stored : Versions) (kind resourceKey : String) : Option Version :=
  (history (parentOf kind resourceKey) stored.items).head?

/-- The resource keys of the kind that a scan meets. -/
def scannedKeys (kind : String) (objs : List RuleVersionResource) : List String :=
  ((objs.filterMap (kindRecordOf kind)).map Version.resourceKey).dedup

/-- `ListLatestVersions` returns the first version of every resource key that the scan meets. -/
theorem listLatestVersions_eq {st : ScanStore S} {s : S} (hkept : WellKept (st.stored s))
    (walk : WalkOrder String) (kind : String) :
    ∃ objs : List RuleVersionResource, objs.Perm (st.stored s).items ∧
      listLatestVersions st walk s kind = .ok (sortBy latestOrder
        ((walk.order (scannedKeys kind objs)).filterMap (firstOf (st.stored s) kind))) := by
  obtain ⟨objs, hscan, hobjs⟩ := st.scan s
  have hobjs_kept : ∀ r ∈ objs, ∃ spec, Kept r spec := fun r hr =>
    hkept r (hobjs.mem_iff.mp hr)
  refine ⟨objs, hobjs, ?_⟩
  have hlatest : (walk.order (scannedKeys kind objs)).mapM
      (latestOfGroup kind (objs.filterMap (kindRecordOf kind))) =
      .ok ((walk.order (scannedKeys kind objs)).map (firstOf (st.stored s) kind)) := by
    refine mapM_eq_ok fun resourceKey hkey => ?_
    rw [(walk.perm _).mem_iff, scannedKeys, List.mem_dedup, List.mem_map] at hkey
    obtain ⟨v, hv, rfl⟩ := hkey
    obtain ⟨p, rfl, hmesh, hresourceKey⟩ := parent_of_mem_scan hobjs_kept hv
    unfold firstOf
    rw [hresourceKey, parentOf_buildResourceKey hmesh]
    exact latestOfGroup_eq hkept hobjs hmesh
  unfold listLatestVersions
  rw [hscan]
  show (versionsFromResources objs kind "" false "" >>= _) = _
  rw [versionsFromResources_eq hobjs_kept kind]
  show ((walk.order (scannedKeys kind objs)).mapM
    (latestOfGroup kind (objs.filterMap (kindRecordOf kind))) >>= _) = _
  rw [hlatest]
  show Except.ok (sortBy latestOrder
    ((walk.order (scannedKeys kind objs)).map (firstOf (st.stored s) kind)).reduceOption) = _
  rw [List.reduceOption, List.filterMap_map]
  rfl

theorem resourceKey_of_mem_history (hv : v ∈ history p stored.items) :
    v.resourceKey = buildResourceKey p.mesh p.name := by
  obtain ⟨r, -, spec, hrecord, rfl⟩ := mem_history.mp hv
  rw [← hrecord.ofParent]
  rfl

theorem mem_scan_of_mem_history (hobjs : objs.Perm stored.items) (hv : v ∈ history p stored.items) :
    v ∈ objs.filterMap (kindRecordOf p.kind) := by
  obtain ⟨r, hr, spec, hrecord, rfl⟩ := mem_history.mp hv
  refine List.mem_filterMap.mpr ⟨r, hobjs.mem_iff.mpr hr, ?_⟩
  unfold kindRecordOf
  rw [hrecord.holds]
  exact if_pos (congrArg Parent.kind hrecord.ofParent)

theorem resourceKey_firstOf (hkept : WellKept stored) (hobjs : objs.Perm stored.items)
    {resourceKey : String} (hscanned : resourceKey ∈ scannedKeys kind objs)
    (hv : firstOf stored kind resourceKey = some v) : v.resourceKey = resourceKey := by
  obtain ⟨w, hw, rfl⟩ := List.mem_map.mp (List.mem_dedup.mp hscanned)
  obtain ⟨p, rfl, hmesh, hresourceKey⟩ :=
    parent_of_mem_scan (fun r hr => hkept r (hobjs.mem_iff.mp hr)) hw
  unfold firstOf at hv
  rw [hresourceKey, parentOf_buildResourceKey hmesh] at hv
  rw [hresourceKey]
  exact resourceKey_of_mem_history (List.mem_of_head? hv)

/-- The adapter reads the latest versions of a kind. -/
theorem latestAre {st : ScanStore S} {svc : Service} (hsvc : svc.hasStore = true)
    {s : RuleState σ S} (h : Readable st.toLedgerStore s.ledger) (walk : WalkOrder String)
    (kind : String) : ∃ latest, LatestAre st walk svc s kind latest := by
  obtain ⟨objs, hobjs, hlisted⟩ := listLatestVersions_eq h.kept walk kind
  have hwalk : ∀ key, key ∈ walk.order (scannedKeys kind objs) ↔ key ∈ scannedKeys kind objs :=
    fun key => (walk.perm _).mem_iff
  have hnodup : (walk.order (scannedKeys kind objs)).Nodup :=
    (walk.perm _).nodup_iff.mpr (List.nodup_dedup _)
  refine ⟨_, hlisted, ?_, fun v => ?_⟩
  · -- The keys of the versions are the ones that were walked over.
    have hkeys : (((walk.order (scannedKeys kind objs)).filterMap
        (firstOf (st.stored s.ledger) kind)).map Version.resourceKey).Nodup := by
      unfold List.Nodup
      rw [List.pairwise_map, List.pairwise_filterMap]
      refine hnodup.imp_of_mem fun {key key'} hkey hkey' hne v hv v' hv' hsame => hne ?_
      rw [← resourceKey_firstOf h.kept hobjs ((hwalk key).mp hkey) hv, hsame]
      exact resourceKey_firstOf h.kept hobjs ((hwalk key').mp hkey') hv'
    exact ((List.perm_insertionSort _ _).map Version.resourceKey).nodup_iff.mpr hkeys
  · rw [mem_sortBy, List.mem_filterMap]
    constructor
    · rintro ⟨resourceKey, hkey, hv⟩
      obtain ⟨w, hw, rfl⟩ := List.mem_map.mp (List.mem_dedup.mp ((hwalk _).mp hkey))
      obtain ⟨p, rfl, hmesh, hresourceKey⟩ :=
        parent_of_mem_scan (fun r hr => h.kept r (hobjs.mem_iff.mp hr)) hw
      rw [hresourceKey] at hv
      let ruleRef : RuleRef := ⟨p.kind, p.mesh, p.name⟩
      have hfirst : (recordedOf st.toLedgerStore s ruleRef).head? = some v := hv
      refine ⟨ruleRef, rfl, itemsOf st.toLedgerStore s ruleRef,
        flagged (recordedOf st.toLedgerStore s ruleRef) v, readsAs_itemsOf hsvc h ruleRef, ?_, ?_⟩
      · unfold itemsOf
        rw [List.head?_map, hfirst]
        rfl
      · exact (entry_of_mem_history (List.mem_of_head? hv)).symm
    · rintro ⟨ruleRef, rfl, items, first, hreads, hfirst, rfl⟩
      have hv : (recordedOf st.toLedgerStore s ruleRef).head? = some (entry first) := by
        unfold recordedOf
        rw [← hreads.recorded, List.head?_map, hfirst]
        rfl
      have hmem := List.mem_of_head? hv
      have hresourceKey := resourceKey_of_mem_history hmem
      have hmesh := slash_notMem_extractMesh ruleRef.resourceKey
      refine ⟨(entry first).resourceKey, (hwalk _).mpr (List.mem_dedup.mpr (List.mem_map_of_mem
        (mem_scan_of_mem_history hobjs hmem))), ?_⟩
      unfold firstOf
      rw [hresourceKey]
      have hparent := parentOf_buildResourceKey
        (p := parentOf ruleRef.kind ruleRef.resourceKey) hmesh
      have hkind : (parentOf ruleRef.kind ruleRef.resourceKey).kind = ruleRef.kind := rfl
      rw [hkind] at hparent
      rw [hparent]
      exact hv

end Kind

/-! ## After any run of insertions -/

/-- After every run of insertions from an empty store, the ways to read what is recorded agree: the
versions of a rule that `List` returns are those that `Get` and a diff with `previous` read, and the
latest versions of a kind are the first ones of its rules. -/
theorem read_paths_agree {st : ScanStore S} {times : ℕ → ℤ} {g₀ g : Ledger S}
    (hfresh : Versioning.Fresh st.toVersionStore g₀) {calls : List InsertCall}
    (hrun : Run (fun g c g' => (call st.toVersionStore times g c).2 = g') g₀ calls g)
    (live : LiveRules σ) (maxVersions : ℤ) (walk : WalkOrder String) :
    (∀ ruleRef, ∃ items,
      ReadsAs st.toLedgerStore ⟨maxVersions, true⟩ ⟨g.state.store, live⟩ ruleRef items) ∧
    ∀ kind, ∃ latest,
      LatestAre st walk ⟨maxVersions, true⟩ ⟨g.state.store, live⟩ kind latest := by
  obtain ⟨stored, hat, hkept, -⟩ := inOrder_of_run hfresh hrun
  have hreadable : Readable st.toLedgerStore g.state.store :=
    ⟨hat.valid, hat.exact, hat.contents ▸ hkept⟩
  exact ⟨fun ruleRef => ⟨_, readsAs_itemsOf rfl hreadable ruleRef⟩,
    fun kind => latestAre rfl hreadable walk kind⟩

/-- The paths agree after two insertions with a retention limit of one. -/
def AgreeAfterTwo (st : ScanStore S) (g₀ : Ledger S) : Prop :=
  ∃ g, Run (fun g c g' => (call st.toVersionStore (fun n => n) g c).2 = g') g₀
      [sampleCall, sampleCall] g ∧
    (∀ ruleRef, ∃ items, ReadsAs st.toLedgerStore ⟨1, true⟩
      (⟨g.state.store, Keyed.empty⟩ : RuleState String S) ruleRef items) ∧
    ∀ kind, ∃ latest, LatestAre st (.given String) ⟨1, true⟩
      (⟨g.state.store, Keyed.empty⟩ : RuleState String S) kind latest

/-- The paths agree on the memory store and on the database after two insertions, of which the
second one has removed the record of the first. -/
theorem read_paths_agree_after_two : AgreeAfterTwo memoryScanStore sampleLedger ∧
    AgreeAfterTwo (gormScanStore .insertion) ⟨⟨⟨Keyed.empty, []⟩, 0⟩, []⟩ := by
  have hmemory : Versioning.Fresh memoryScanStore.toVersionStore sampleLedger := fresh_sampleLedger
  have hgorm : Versioning.Fresh (gormScanStore .insertion).toVersionStore
      ⟨⟨⟨Keyed.empty, []⟩, 0⟩, []⟩ := by
    refine ⟨⟨trivial, fun _ _ _ => ?_, rfl⟩, rfl⟩
    simp [Gorm.GormStore.HasRow, Gorm.GormStore.Produces, Keyed.empty]
  exact ⟨⟨_, .snoc (.snoc .nil rfl) rfl,
      read_paths_agree hmemory (.snoc (.snoc .nil rfl) rfl) Keyed.empty 1 (.given String)⟩,
    _, .snoc (.snoc .nil rfl) rfl,
    read_paths_agree hgorm (.snoc (.snoc .nil rfl) rfl) Keyed.empty 1 (.given String)⟩

end DubboAdmin.Console
