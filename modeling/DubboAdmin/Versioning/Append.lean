import DubboAdmin.Lib.Outcomes
import DubboAdmin.Versioning.Adapter

/-!
# Inserts where any step may fail

One call of the adapter at a time, over a store whose every operation may fail: a read returns an
error, a write fails before or after it has taken effect, the context is cancelled between any two
steps. A call that returns a version has recorded the newest one of the parent all the same
(`insertVersion_newest`). The number that the loop tries is above all numbers of the history that it
has read last, and retention only deletes what it finds under a lower number of the same parent.
-/

namespace DubboAdmin.Versioning

open Prog (Ensures)

variable {S : Type}

/-! ## Steps that may fail -/

/-- A version store whose `Add`, whether the key is taken or not, adds or fails. -/
structure LedgerStore (S : Type) extends VersionStore S where
  addsOrFails : toLawfulStore.AddsOrFails

/-- The memory store of rule versions, whose `Add` overwrites. -/
def memoryLedgerStore : LedgerStore (Memory.ResourceStore (Option RuleVersion)) where
  toVersionStore := memoryVersionStore
  addsOrFails :=
    memoryStore_addsOrFails ruleVersionKind ruleVersionIndexers fun r _ => indexable_ruleVersion r

/-- The database store of rule versions, whose `Add` rejects. -/
def gormLedgerStore (ord : Gorm.RowOrder) : LedgerStore (Gorm.DB (Option RuleVersion)) where
  toVersionStore := gormVersionStore ord
  addsOrFails := (gormStore_rejects _ ord).addsOrFails

/-- A step where nothing fails. -/
def ledgerStep (st : LedgerStore S) (s : S) : (o : LedgerOp) → o.Res × S
  | .ctxErr => (none, s)
  | .timeNow => ((0 : ℤ), s)
  | .byIndex indexName indexedValue => (st.byIndex s indexName indexedValue, s)
  | .getByKey key => (st.getByKey s key, s)
  | .add rv => st.add s rv
  | .delete rv => st.delete s rv

/-- What a step may do. -/
inductive LedgerSem (st : LedgerStore S) (s : S) : (o : LedgerOp) → o.Res → S → Prop
  /-- The step succeeds. -/
  | run (o : LedgerOp) : LedgerSem st s o (ledgerStep st s o).1 (ledgerStep st s o).2
  | cancelled (e : Failure) : LedgerSem st s .ctxErr (some e) s
  | time (t : ℤ) : LedgerSem st s .timeNow t s
  | failByIndex (indexName indexedValue : String) (e : Failure) :
      LedgerSem st s (.byIndex indexName indexedValue) (.error e) s
  | failGetByKey (key : String) (e : Failure) : LedgerSem st s (.getByKey key) (.error e) s
  | failAdd (rv : RuleVersionResource) (e : Failure) : LedgerSem st s (.add rv) (.error e) s
  /-- `Add` fails after it has taken effect. -/
  | loseAdd (rv : RuleVersionResource) (e : Failure) :
      LedgerSem st s (.add rv) (.error e) (st.add s rv).2
  | failDelete (rv : RuleVersionResource) (e : Failure) : LedgerSem st s (.delete rv) (.error e) s
  /-- `Delete` fails after it has taken effect. -/
  | loseDelete (rv : RuleVersionResource) (e : Failure) :
      LedgerSem st s (.delete rv) (.error e) (st.delete s rv).2

/-! ## The newest record -/

/-- The state is one of the store, and its index is exact. -/
structure Sound (st : LedgerStore S) (s : S) : Prop where
  valid : st.valid s
  exact : st.exact s

theorem Sound.of_leaves {st : LedgerStore S} {s s' : S} (h : Sound st s)
    {contents : Contents (Option RuleVersion)} (hleaves : st.Leaves s contents s') : Sound st s' :=
  ⟨hleaves.valid, hleaves.exact h.exact⟩

/-- The version is recorded for the parent, and every other one has a lower number. -/
structure Newest (p : Parent) (stored : List RuleVersionResource) (v : Version) : Prop where
  mem : v ∈ history p stored
  above : ∀ w ∈ history p stored, w ≠ v → w.versionNo < v.versionNo

section Records

variable {p : Parent} {stored : Contents (Option RuleVersion)} {rv : RuleVersionResource}
  {spec : RuleVersion}

theorem newest_put (hrv : IsRecord p rv spec)
    (habove : ∀ w ∈ history p stored.items, w.versionNo < spec.versionNo) :
    Newest p (stored.put rv).items spec.toVersion := by
  refine ⟨mem_history.mpr ⟨rv, Keyed.mem_put.mpr (.inl rfl), spec, hrv, rfl⟩, fun w hw hne => ?_⟩
  obtain ⟨r, hr, spec', hrecord, rfl⟩ := mem_history.mp hw
  rcases Keyed.mem_put.mp hr with rfl | ⟨hr, -⟩
  · have hsame : spec' = spec := Option.some.inj (hrecord.holds.symm.trans hrv.holds)
    exact absurd (congrArg RuleVersion.toVersion hsame) hne
  · exact habove _ (mem_history.mpr ⟨r, hr, spec', hrecord, rfl⟩)

/-- The newest record stays when an older one of its parent is removed. -/
theorem Newest.erase {v : Version} (h : Newest p stored.items v) (hmem : rv ∈ stored.items)
    (hrv : IsRecord p rv spec) (holder : spec.versionNo < v.versionNo) :
    Newest p (stored.erase rv.resourceKey).items v := by
  obtain ⟨r, hr, spec', hrecord, rfl⟩ := mem_history.mp h.mem
  refine ⟨mem_history.mpr ⟨r, Keyed.mem_erase.mpr ⟨hr, fun hkey => ?_⟩, spec', hrecord, rfl⟩,
    fun w hw hne => ?_⟩
  · -- The key holds one resource, whose number is not both.
    obtain rfl : r = rv := Keyed.eq_of_key_eq hr hmem hkey
    have hsame : spec' = spec := Option.some.inj (hrecord.holds.symm.trans hrv.holds)
    rw [hsame] at holder
    exact lt_irrefl _ holder
  · obtain ⟨r', hr', hw⟩ := mem_history.mp hw
    exact h.above w (mem_history.mpr ⟨r', (Keyed.mem_erase.mp hr').1, hw⟩) hne

end Records

/-! ## What the calls ensure -/

section Calls

variable {st : LedgerStore S} {s : S} {kind resourceKey : String}

theorem ensures_unlessCancelled {α : Type} {post : Except Failure α → S → Prop}
    {rest : LedgerProg (Except Failure α)} (herror : ∀ e, post (.error e) s)
    (h : Ensures (LedgerSem st) post rest s) :
    Ensures (LedgerSem st) post (unlessCancelled rest) s := by
  intro cancelled s' hsem
  cases hsem with
  | run _ => exact h
  | cancelled e => exact herror e

theorem ensures_timeNow : Ensures (LedgerSem st) (fun _ s' => s' = s) timeNow s := by
  refine Ensures.perform fun r s' hsem => ?_
  cases hsem with
  | run _ => rfl
  | time t => rfl

/-- The history that is read is the one that is stored, with distinct numbers. -/
theorem ensures_historyState (h : Sound st s) :
    Ensures (LedgerSem st) (fun result s' => s' = s ∧ ∀ state, result = .ok state →
      Numbered (parentOf kind resourceKey) (st.stored s).items ∧
      state = .ofVersions (history (parentOf kind resourceKey) (st.stored s).items))
      (historyState kind resourceKey) s := by
  obtain ⟨out, hout, hcases⟩ := historyOf_byIndex h.valid h.exact kind resourceKey
  have hread : Ensures (LedgerSem st)
      (fun result s' => s' = s ∧ ∀ objs, result = .ok objs → objs = out)
      (byIndex byParentRuleIndexName (buildParentIndexKey kind resourceKey)) s := by
    refine Ensures.perform fun r s' hsem => ?_
    cases hsem with
    | run _ => exact ⟨rfl, fun objs hobjs => Except.ok.inj (hobjs.symm.trans hout)⟩
    | failByIndex _ _ e => exact ⟨rfl, fun objs hobjs => by cases hobjs⟩
  refine Ensures.bind hread fun result s' hresult => ?_
  obtain ⟨rfl, hobjs⟩ := hresult
  match result with
  | .error e => exact ⟨rfl, fun state hstate => by cases hstate⟩
  | .ok objs =>
    obtain rfl := hobjs objs rfl
    refine ⟨rfl, fun state hstate => ?_⟩
    rcases hcases with ⟨hnumbered, hhistory⟩ | ⟨-, e, herror⟩
    · exact ⟨hnumbered, Except.ok.inj (hstate.symm.trans hhistory)⟩
    · cases hstate.symm.trans herror

/-- The record that is found is stored, and has the number that was asked for. -/
theorem ensures_getVersionResourceForRule (n : ℤ) :
    Ensures (LedgerSem st) (fun result s' => s' = s ∧ ∀ rv, result = .ok rv →
      rv ∈ (st.stored s).items ∧
        ∃ spec, IsRecord (parentOf kind resourceKey) rv spec ∧ spec.versionNo = n)
      (getVersionResourceForRule kind resourceKey n) s := by
  have hread : Ensures (LedgerSem st) (fun result s' => s' = s ∧ ∀ obj, result = .ok obj →
      obj = (st.stored s).get? (buildVersionResourceKey kind resourceKey n))
      (getByKey (buildVersionResourceKey kind resourceKey n)) s := by
    refine Ensures.perform fun r s' hsem => ?_
    cases hsem with
    | run _ =>
      exact ⟨rfl, fun obj hobj => Except.ok.inj (hobj.symm.trans (st.getByKey_eq s _))⟩
    | failGetByKey _ e => exact ⟨rfl, fun obj hobj => by cases hobj⟩
  refine Ensures.bind hread fun result s' hresult => ?_
  obtain ⟨rfl, hobj⟩ := hresult
  match result with
  | .error e => exact ⟨rfl, fun rv hrv => by cases hrv⟩
  | .ok obj =>
    refine ⟨rfl, fun rv hrv => ?_⟩
    obtain ⟨hsome, hkind, spec, hspec, hparent, hnumber⟩ := checkVersionResource_eq_ok hrv
    rw [hobj obj rfl] at hsome
    exact ⟨(Keyed.get?_eq_some_iff.mp hsome).1, spec, ⟨hkind, hspec, hparent⟩, hnumber⟩

variable {rv : RuleVersionResource} {spec : RuleVersion}

/-- `Add`, where it has taken effect or not. -/
theorem ensures_add (h : Sound st s) {p : Parent} (hrv : IsRecord p rv spec)
    (habove : ∀ w ∈ history p (st.stored s).items, w.versionNo < spec.versionNo) :
    Ensures (LedgerSem st) (fun result s' => Sound st s' ∧
      (result = .ok () → Newest p (st.stored s').items spec.toVersion)) (add rv) s := by
  have hkind : rv.kind = st.kind := hrv.ofKind.trans st.kind_eq.symm
  have hadd := st.addsOrFails s rv h.valid hkind
  refine Ensures.perform fun r s' hsem => ?_
  cases hsem with
  | failAdd _ e => exact ⟨h, fun hok => by cases hok⟩
  | loseAdd _ e =>
    refine ⟨?_, fun hok => by cases hok⟩
    rcases hadd with ⟨-, hleaves⟩ | ⟨e', hadd⟩
    · exact h.of_leaves hleaves
    · rw [hadd]
      exact h
  | run _ =>
    simp only [ledgerStep]
    rcases hadd with ⟨-, hleaves⟩ | ⟨e, hadd⟩
    · refine ⟨h.of_leaves hleaves, fun _ => ?_⟩
      rw [hleaves.stored]
      exact newest_put hrv habove
    · rw [hadd]
      exact ⟨h, fun hok => by cases hok⟩

variable {v : Version}

/-- `Delete` of an older record, where it has taken effect or not, keeps the newest one. -/
theorem ensures_delete (h : Sound st s) {p : Parent} (hnewest : Newest p (st.stored s).items v)
    (hmem : rv ∈ (st.stored s).items) (hrv : IsRecord p rv spec)
    (holder : spec.versionNo < v.versionNo) :
    Ensures (LedgerSem st) (fun _ s' => Sound st s' ∧ Newest p (st.stored s').items v)
      (delete rv) s := by
  have hleaves := st.delete_spec s rv h.valid
  have heffect : Sound st (st.delete s rv).2 ∧ Newest p (st.stored (st.delete s rv).2).items v := by
    refine ⟨h.of_leaves hleaves, ?_⟩
    rw [hleaves.stored]
    exact hnewest.erase hmem hrv holder
  refine Ensures.perform fun r s' hsem => ?_
  cases hsem with
  | run _ => exact heffect
  | failDelete _ e => exact ⟨h, hnewest⟩
  | loseDelete _ e => exact heffect

/-- The loop of the retention keeps the newest record, where it is given older versions. -/
theorem ensures_deleteVersions (h : Sound st s)
    (hnewest : Newest (parentOf kind resourceKey) (st.stored s).items v) {versions : List Version}
    (holder : ∀ w ∈ versions, w.versionNo < v.versionNo) :
    Ensures (LedgerSem st)
      (fun _ s' => Sound st s' ∧ Newest (parentOf kind resourceKey) (st.stored s').items v)
      (deleteVersions kind resourceKey versions) s := by
  induction versions generalizing s with
  | nil => exact ⟨h, hnewest⟩
  | cons w versions ih =>
    refine ensures_unlessCancelled (fun _ => ⟨h, hnewest⟩) ?_
    refine Ensures.bind (ensures_getVersionResourceForRule w.versionNo) fun result s₁ h₁ => ?_
    obtain ⟨rfl, hfound⟩ := h₁
    match result with
    | .error e => exact ⟨h, hnewest⟩
    | .ok rv =>
      obtain ⟨hmem, spec, hrv, hnumber⟩ := hfound rv rfl
      have hlt : spec.versionNo < v.versionNo := hnumber ▸ holder w List.mem_cons_self
      refine Ensures.bind (ensures_delete h hnewest hmem hrv hlt) fun result s₂ h₂ => ?_
      match result with
      | .error e => exact h₂
      | .ok () => exact ih h₂.1 h₂.2 fun w hw => holder w (List.mem_cons_of_mem _ hw)

/-- The retention of at least one version keeps the newest record. -/
theorem ensures_trimVersionsLocked (h : Sound st s)
    (hnewest : Newest (parentOf kind resourceKey) (st.stored s).items v) {keep : ℕ}
    (hkeep : keep > 0) :
    Ensures (LedgerSem st)
      (fun _ s' => Sound st s' ∧ Newest (parentOf kind resourceKey) (st.stored s').items v)
      (trimVersionsLocked kind resourceKey keep) s := by
  refine Ensures.bind (ensures_historyState h) fun result s₁ h₁ => ?_
  obtain ⟨rfl, hstate⟩ := h₁
  match result with
  | .error e => exact ⟨h, hnewest⟩
  | .ok state =>
    obtain ⟨hnumbered, rfl⟩ := hstate state rfl
    dsimp only
    split_ifs
    · exact ⟨h, hnewest⟩
    · refine ensures_deleteVersions h hnewest fun w hw => ?_
      rw [versions_ofVersions] at hw
      obtain ⟨w', hw', hlt⟩ := exists_newer hnumbered.descending hkeep hw
      -- The newer version is the newest one or below it.
      by_cases hsame : w' = v
      · rwa [hsame] at hlt
      · exact hlt.trans (hnewest.above w' hw' hsame)

/-- The version has the data of the request, and is the newest one of its parent. -/
structure Recorded (st : LedgerStore S) (req : InsertRequest) (s : S) (v : Version) : Prop where
  newest : Newest req.parent (st.stored s).items v
  contentHash : v.contentHash = req.contentHash
  operation : v.operation = req.operation

/-- What the loop leaves: the record that it returns is the newest one. -/
def Allocates (st : LedgerStore S) (req : InsertRequest)
    (result : Except Failure RuleVersionResource) (s : S) : Prop :=
  Sound st s ∧ ∀ rv, result = .ok rv →
    ∃ spec, rv.spec = some spec ∧ Recorded st req s spec.toVersion

/-- The loop, from a number above all that are recorded for the parent. -/
theorem ensures_allocate (h : Sound st s) (req : InsertRequest) (createdAt recordedAt : ℤ)
    (attempts : ℕ) {versionNo : ℤ}
    (habove : ∀ w ∈ history req.parent (st.stored s).items, w.versionNo < versionNo)
    (addErr : Failure) :
    Ensures (LedgerSem st) (Allocates st req)
      (allocate req createdAt recordedAt attempts versionNo addErr) s := by
  have hend : ∀ (e : Failure) s, Sound st s → Allocates st req (.error e) s :=
    fun e s hs => ⟨hs, fun rv hrv => by cases hrv⟩
  induction attempts generalizing versionNo addErr s with
  | zero => exact hend _ _ h
  | succ attempts ih =>
    refine ensures_unlessCancelled (hend · _ h) ?_
    refine Ensures.bind (ensures_add h ⟨rfl, rfl, rfl⟩ habove) fun result s₁ h₁ => ?_
    obtain ⟨hsound, hnewest⟩ := h₁
    match result with
    | .ok () =>
      refine ⟨hsound, fun rv hrv => ?_⟩
      cases hrv
      exact ⟨_, rfl, hnewest rfl, rfl, rfl⟩
    | .error addErr =>
      -- Another attempt takes its number from the history as it is now.
      refine Ensures.bind (ensures_getVersionResourceForRule versionNo) fun result s₂ h₂ => ?_
      obtain ⟨rfl, -⟩ := h₂
      match result with
      | .error .versionNotFound | .error (.other _) => exact hend _ _ hsound
      | .ok _ =>
        refine ensures_unlessCancelled (hend · _ hsound) ?_
        refine Ensures.bind (ensures_historyState hsound) fun result s₃ h₃ => ?_
        obtain ⟨rfl, hstate⟩ := h₃
        match result with
        | .error e => exact hend _ _ hsound
        | .ok state =>
          obtain ⟨hnumbered, rfl⟩ := hstate state rfl
          dsimp only
          split_ifs
          · exact hend _ _ hsound
          · exact ih hsound
              (fun w hw => Int.lt_add_one_of_le (le_maxVersionNo hnumbered.descending hw)) _

/-- What a call leaves: the version that it returns is the newest one. -/
def Inserts (st : LedgerStore S) (req : InsertRequest) (result : Except Failure Version) (s : S) :
    Prop :=
  Sound st s ∧ ∀ v, result = .ok v → Recorded st req s v

theorem inserts_error {req : InsertRequest} (h : Sound st s) (e : Failure) :
    Inserts st req (.error e) s :=
  ⟨h, fun v hv => by cases hv⟩

/-- The end of a call returns the record that was added. -/
theorem ensures_finish (h : Sound st s) (req : InsertRequest) (maxVersions : ℕ)
    (hspec : rv.spec = some spec) (hrecorded : Recorded st req s spec.toVersion) :
    Ensures (LedgerSem st) (Inserts st req) (finish req maxVersions rv) s := by
  have hend : ∀ {s : S}, Sound st s → Newest req.parent (st.stored s).items spec.toVersion →
      Inserts st req (protoToVersion rv.spec) s := by
    intro s hs hnewest
    refine ⟨hs, fun v hv => ?_⟩
    rw [hspec] at hv
    cases hv
    exact ⟨hnewest, hrecorded.contentHash, hrecorded.operation⟩
  refine ensures_unlessCancelled (inserts_error h) ?_
  split_ifs with hmax
  · exact Ensures.bind (ensures_trimVersionsLocked h hrecorded.newest hmax)
      fun _ _ h₁ => hend h₁.1 h₁.2
  · exact hend h hrecorded.newest

/-- A call from its first number on, above all that are recorded for the parent. -/
theorem ensures_insertFrom (h : Sound st s) (req : InsertRequest) (maxVersions : ℕ) {versionNo : ℤ}
    (habove : ∀ w ∈ history req.parent (st.stored s).items, w.versionNo < versionNo) :
    Ensures (LedgerSem st) (Inserts st req) (insertFrom req maxVersions versionNo) s := by
  have htime : Ensures (LedgerSem st) (fun _ s' => s' = s) (createdAt req) s := by
    unfold createdAt
    split_ifs
    · exact ensures_timeNow
    · exact rfl
  refine Ensures.bind htime fun createdAt s₁ h₁ => ?_
  obtain rfl := h₁
  refine Ensures.bind ensures_timeNow fun recordedAt s₂ h₂ => ?_
  obtain rfl := h₂
  refine ensures_unlessCancelled (inserts_error h) ?_
  refine Ensures.bind (ensures_allocate h req createdAt recordedAt _ habove _)
    fun result s₃ h₃ => ?_
  obtain ⟨hsound, hadded⟩ := h₃
  match result with
  | .error e => exact inserts_error hsound e
  | .ok rv =>
    obtain ⟨spec, hspec, hrecorded⟩ := hadded rv rfl
    exact ensures_finish hsound req maxVersions hspec hrecorded

/-- Whatever fails during a call of `InsertVersion`, the version that it returns is the newest one
of the parent. -/
theorem insertVersion_newest (h : Sound st s) (req : InsertRequest) (maxVersions : ℕ) :
    Ensures (LedgerSem st) (Inserts st req) (insertVersion req maxVersions) s := by
  refine ensures_unlessCancelled (inserts_error h) ?_
  refine Ensures.bind (ensures_historyState h) fun result s₁ h₁ => ?_
  obtain ⟨rfl, hstate⟩ := h₁
  match result with
  | .error e => exact inserts_error h e
  | .ok state =>
    obtain ⟨hnumbered, rfl⟩ := hstate state rfl
    refine ensures_unlessCancelled (inserts_error h) (ensures_insertFrom h req maxVersions ?_)
    exact fun w hw => Int.lt_add_one_of_le (le_maxVersionNo hnumbered.descending hw)

end Calls

end DubboAdmin.Versioning
