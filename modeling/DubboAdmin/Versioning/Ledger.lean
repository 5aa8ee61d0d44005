import DubboAdmin.Versioning.Adapter

/-!
# The ledger of one adapter

Calls of `InsertVersion` one after the other, with a context that is never cancelled, on a store
that was empty at the start. Each parent's numbers go up by one from call to call, its history is
the most recent part of what was inserted, and no other parent is affected (`insertVersion_in_run`).

Every record is stored under the key of its own parent and number (`WellKept`), which the
injectivity of the keys turns into a frame for all other records. The highest number stored for a
parent is the last one returned for it, because retention keeps at least one record.
-/

namespace DubboAdmin.Versioning

variable {S : Type}

/-! ## Steps of one adapter -/

/-- The state of the store, and how often the clock was read. -/
structure LedgerState (S : Type) where
  store : S
  readings : ℕ

/-- A step where the context is not cancelled and the clock shows the given times. -/
def step (st : ResourceStore (Option RuleVersion) S) (times : ℕ → ℤ) (l : LedgerState S) :
    (o : LedgerOp) → o.Res × LedgerState S
  | .ctxErr => (none, l)
  | .timeNow => (times l.readings, { l with readings := l.readings + 1 })
  | .byIndex indexName indexedValue => (st.byIndex l.store indexName indexedValue, l)
  | .getByKey key => (st.getByKey l.store key, l)
  | .add rv => ((st.add l.store rv).1, { l with store := (st.add l.store rv).2 })
  | .delete rv => ((st.delete l.store rv).1, { l with store := (st.delete l.store rv).2 })

/-! ## Well-kept contents -/

/-- The contents of a version store: at most one resource per key. -/
abbrev Versions := Contents (Option RuleVersion)

/-- A record under the key of its own parent and number, whose key can be read back. -/
structure Kept (r : RuleVersionResource) (spec : RuleVersion) : Prop where
  /-- The resource is one of the version store's type. -/
  ofKind : r.kind = ruleVersionKind
  holds : r.spec = some spec
  key : r.resourceKey = spec.parent.versionKey spec.versionNo
  mesh : '/' ∉ spec.parent.mesh.toList
  kind : '-' ∉ spec.parent.kind.toList
  pos : 0 < spec.versionNo

/-- Every stored resource is a kept record. -/
def WellKept (stored : Versions) : Prop := ∀ r ∈ stored.items, ∃ spec, Kept r spec

/-- The highest number of a parent, or `0`. -/
def top (p : Parent) (stored : Versions) : ℤ :=
  (HistoryState.ofVersions (history p stored.items)).maxVersionNo

section WellKept

variable {stored : Versions} {p p' : Parent}

theorem WellKept.kept (h : WellKept stored) {r : RuleVersionResource} (hr : r ∈ stored.items)
    {spec : RuleVersion} (hrecord : IsRecord p r spec) : Kept r spec := by
  obtain ⟨spec', hkept⟩ := h r hr
  obtain rfl : spec' = spec := Option.some.inj (hkept.holds.symm.trans hrecord.holds)
  exact hkept

theorem Kept.eq_of_key {r r' : RuleVersionResource} {spec spec' : RuleVersion} (h : Kept r spec)
    (h' : Kept r' spec') (hkey : r.resourceKey = r'.resourceKey) :
    spec.parent = spec'.parent ∧ spec.versionNo = spec'.versionNo := by
  rw [h.key, h'.key] at hkey
  exact Parent.versionKey_inj h.mesh h'.mesh h.kind h'.kind h.pos.le h'.pos.le hkey

/-- The numbers of a parent are distinct. -/
theorem WellKept.numbered (h : WellKept stored) (p : Parent) : Numbered p stored.items := by
  unfold Numbered List.Nodup
  rw [List.pairwise_map, List.pairwise_filterMap]
  refine stored.nodup.of_map.pairwise_of_forall_ne fun r hr r' hr' hne v hv v' hv' hsame => hne ?_
  obtain ⟨spec, hrecord, rfl⟩ := recordOf_eq_some_iff.mp hv
  obtain ⟨spec', hrecord', rfl⟩ := recordOf_eq_some_iff.mp hv'
  have hnumber : spec.versionNo = spec'.versionNo := hsame
  have hparent : spec.parent = spec'.parent := hrecord.ofParent.trans hrecord'.ofParent.symm
  -- The same parent and number give the same key, under which there is one resource.
  refine Keyed.eq_of_key_eq hr hr' ?_
  rw [(h.kept hr hrecord).key, (h.kept hr' hrecord').key, hparent, hnumber]

theorem WellKept.descending (h : WellKept stored) (p : Parent) :
    Descending (history p stored.items) :=
  (h.numbered p).descending

theorem le_top (h : WellKept stored) {v : Version} (hv : v ∈ history p stored.items) :
    v.versionNo ≤ top p stored :=
  le_maxVersionNo (h.descending p) hv

theorem top_nonneg (h : WellKept stored) (p : Parent) : 0 ≤ top p stored := by
  unfold top
  cases hhistory : history p stored.items with
  | nil => exact le_rfl
  | cons w versions =>
    have hw : w ∈ history p stored.items := by
      rw [hhistory]
      exact List.mem_cons_self
    obtain ⟨r, hr, spec, hrecord, rfl⟩ := mem_history.mp hw
    exact (h.kept hr hrecord).pos.le

end WellKept

/-! ## Writes to well-kept contents -/

section Writes

variable {stored : Versions} {p p' : Parent}

/-- The record is the one that the request asks for, under the number. -/
structure RecordOf (req : InsertRequest) (versionNo : ℤ) (spec : RuleVersion) : Prop where
  parent : spec.parent = req.parent
  versionNo : spec.versionNo = versionNo
  content : spec.contentHash = req.contentHash ∧ spec.specJson = req.specJSON
  operation : spec.operation = req.operation
  /-- It says what the request says about a rollback. -/
  rolledBackFrom : spec.rolledBackFromVersionNo = req.rolledBackFromVersionNo.getD 0

theorem kept_newRuleVersionResource {req : InsertRequest} (hkind : '-' ∉ req.ruleKind.toList)
    {versionNo : ℤ} (hpos : 0 < versionNo) (createdAt recordedAt : ℤ) :
    ∃ spec, Kept (newRuleVersionResource req versionNo createdAt recordedAt) spec ∧
      RecordOf req versionNo spec :=
  ⟨_, ⟨rfl, rfl, resourceKey_newRuleVersionResource req versionNo createdAt recordedAt,
    slash_notMem_extractMesh req.resourceKey, hkind, hpos⟩, ⟨rfl, rfl, ⟨rfl, rfl⟩, rfl, rfl⟩⟩

variable {rv : RuleVersionResource} {spec : RuleVersion}

theorem WellKept.put (h : WellKept stored) (hrv : Kept rv spec) : WellKept (stored.put rv) := by
  intro r hr
  rcases Keyed.mem_put.mp hr with rfl | ⟨hr, -⟩
  · exact ⟨spec, hrv⟩
  · exact h r hr

theorem WellKept.erase (h : WellKept stored) (key : String) : WellKept (stored.erase key) :=
  fun r hr => h r (Keyed.mem_erase.mp hr).1

theorem get?_eq_none_of_top_lt (h : WellKept stored) (hrv : Kept rv spec)
    (htop : top spec.parent stored < spec.versionNo) :
    stored.get? rv.resourceKey = none := by
  refine Keyed.get?_eq_none_iff.mpr fun r hr hkey => ?_
  obtain ⟨spec', hkept⟩ := h r hr
  obtain ⟨hparent, hnumber⟩ := hkept.eq_of_key hrv hkey
  have hle := le_top h (mem_history.mpr ⟨r, hr, spec', ⟨hkept.ofKind, hkept.holds, hparent⟩, rfl⟩)
  have hno : spec'.toVersion.versionNo = spec'.versionNo := rfl
  omega

/-- The history of the parent after a record above all others was added. -/
theorem history_put_self (h : WellKept stored) (hrv : Kept rv spec)
    (htop : top spec.parent stored < spec.versionNo) :
    history spec.parent (stored.put rv).items =
      spec.toVersion :: history spec.parent stored.items := by
  have hnone := get?_eq_none_of_top_lt h hrv htop
  refine eq_of_ascending ((h.put hrv).descending spec.parent) ?_ fun v => ?_
  · refine List.pairwise_cons.mpr ⟨fun v hv => ?_, h.descending spec.parent⟩
    have hlt : v.versionNo < spec.versionNo := (le_top h hv).trans_lt htop
    exact neg_lt_neg hlt
  · rw [mem_history, List.mem_cons, mem_history]
    simp only [Keyed.mem_put]
    constructor
    · rintro ⟨r, rfl | ⟨hr, -⟩, spec', hrecord, rfl⟩
      · obtain rfl : spec = spec' := Option.some.inj (hrv.holds.symm.trans hrecord.holds)
        exact .inl rfl
      · exact .inr ⟨r, hr, spec', hrecord, rfl⟩
    · rintro (rfl | ⟨r, hr, hrecord⟩)
      · exact ⟨rv, .inl rfl, spec, ⟨hrv.ofKind, hrv.holds, rfl⟩, rfl⟩
      · exact ⟨r, .inr ⟨hr, Keyed.get?_eq_none_iff.mp hnone r hr⟩, hrecord⟩

theorem history_congr (h : WellKept stored) {stored' : Versions} (h' : WellKept stored')
    (hsame : ∀ r spec, IsRecord p r spec → (r ∈ stored'.items ↔ r ∈ stored.items)) :
    history p stored'.items = history p stored.items := by
  refine eq_of_ascending (h'.descending p) (h.descending p) fun v => ?_
  rw [mem_history, mem_history]
  constructor
  · rintro ⟨r, hr, spec, hrecord, hv⟩
    exact ⟨r, (hsame r spec hrecord).mp hr, spec, hrecord, hv⟩
  · rintro ⟨r, hr, spec, hrecord, hv⟩
    exact ⟨r, (hsame r spec hrecord).mpr hr, spec, hrecord, hv⟩

/-- The history of another parent is not affected by an added record. -/
theorem history_put_other (h : WellKept stored) (hrv : Kept rv spec) (hother : p ≠ spec.parent) :
    history p (stored.put rv).items = history p stored.items := by
  refine history_congr h (h.put hrv) fun r spec' hrecord => ?_
  rw [Keyed.mem_put]
  constructor
  · rintro (rfl | ⟨hr, -⟩)
    · have hsame : spec' = spec := Option.some.inj (hrecord.holds.symm.trans hrv.holds)
      exact absurd (hrecord.ofParent.symm.trans (congrArg RuleVersion.parent hsame)) hother
    · exact hr
  · intro hr
    refine .inr ⟨hr, fun hkey => hother ?_⟩
    have hparent := ((h.kept hr hrecord).eq_of_key hrv hkey).1
    exact hrecord.ofParent.symm.trans hparent

/-- What is left when the records of some versions of a parent are removed. -/
def eraseVersions (p : Parent) (stored : Versions) (versions : List Version) : Versions :=
  versions.foldl (fun stored v => stored.erase (p.versionKey v.versionNo)) stored

theorem mem_eraseVersions {versions : List Version} {r : RuleVersionResource} :
    r ∈ (eraseVersions p stored versions).items ↔
      r ∈ stored.items ∧ ∀ v ∈ versions, r.resourceKey ≠ p.versionKey v.versionNo := by
  induction versions generalizing stored with
  | nil => simp [eraseVersions]
  | cons v versions ih =>
    have hfold : eraseVersions p stored (v :: versions) =
        eraseVersions p (stored.erase (p.versionKey v.versionNo)) versions := rfl
    rw [hfold, ih, Keyed.mem_erase, List.forall_mem_cons, and_assoc]

theorem WellKept.eraseVersions (h : WellKept stored) (p : Parent) (versions : List Version) :
    WellKept (eraseVersions p stored versions) :=
  fun r hr => h r (mem_eraseVersions.mp hr).1

/-- Removing records of a parent from the end of its history leaves the beginning. -/
theorem history_eraseVersions_self (h : WellKept stored) (p : Parent) (keep : ℕ) :
    history p (eraseVersions p stored ((history p stored.items).drop keep)).items =
      (history p stored.items).take keep := by
  have hdescending := h.descending p
  refine eq_of_ascending ((h.eraseVersions p _).descending p)
    (hdescending.sublist (List.take_sublist keep _)) fun v => ?_
  -- A version is kept if and only if it is not among those behind, which have other numbers.
  have hsplit : (history p stored.items).take keep ++ (history p stored.items).drop keep =
      history p stored.items := List.take_append_drop keep _
  have hnodup : ((history p stored.items).map newestFirst).Nodup := hdescending.nodup
  rw [mem_history]
  simp only [mem_eraseVersions]
  constructor
  · rintro ⟨r, ⟨hr, hkey⟩, spec, hrecord, rfl⟩
    have hmem := mem_history.mpr ⟨r, hr, spec, hrecord, rfl⟩
    rw [← hsplit] at hmem
    refine (List.mem_append.mp hmem).resolve_right fun hdropped => hkey _ hdropped ?_
    rw [(h.kept hr hrecord).key, hrecord.ofParent]
    rfl
  · intro hv
    obtain ⟨r, hr, spec, hrecord, rfl⟩ := mem_history.mp (List.mem_of_mem_take hv)
    refine ⟨r, ⟨hr, fun w hw hkey => ?_⟩, spec, hrecord, rfl⟩
    rw [(h.kept hr hrecord).key, hrecord.ofParent] at hkey
    have hnumber : spec.versionNo = w.versionNo := p.versionKey_inj_right hkey
    rw [← hsplit, List.map_append] at hnodup
    have hdisjoint := List.disjoint_of_nodup_append hnodup
    refine hdisjoint (List.mem_map_of_mem hv) ?_
    have hsame : newestFirst spec.toVersion = newestFirst w := congrArg Neg.neg hnumber
    rw [hsame]
    exact List.mem_map_of_mem hw

/-- Removing records of a parent does not affect another one. -/
theorem history_eraseVersions_other (h : WellKept stored) {versions : List Version}
    (hversions : ∀ v ∈ versions, v ∈ history p' stored.items) (hother : p ≠ p') :
    history p (eraseVersions p' stored versions).items = history p stored.items := by
  refine history_congr h (h.eraseVersions p' versions) fun r spec hrecord => ?_
  rw [mem_eraseVersions, and_iff_left_iff_imp]
  intro hr v hv hkey
  obtain ⟨r', hr', spec', hrecord', rfl⟩ := mem_history.mp (hversions v hv)
  have hkept' := h.kept hr' hrecord'
  have hkey' : r.resourceKey = r'.resourceKey := by
    rw [hkey, hkept'.key, hrecord'.ofParent]
    rfl
  have hparent := ((h.kept hr hrecord).eq_of_key hkept' hkey').1
  exact hother (hrecord.ofParent.symm.trans (hparent.trans hrecord'.ofParent))

end Writes

/-! ## Reading -/

section Reading

variable {st : VersionStore S} {s : S} {T : Type} {f : T → (o : LedgerOp) → o.Res × T} {t : T}

/-- The history is read as it is, where `ByIndex` is answered by the store. -/
theorem exec_historyState_of_read (hread : ∀ n v, f t (.byIndex n v) = (st.byIndex s n v, t))
    (hvalid : st.valid s) (hexact : st.exact s) (hkept : WellKept (st.stored s))
    (kind resourceKey : String) :
    Prog.exec f (historyState kind resourceKey) t =
      (.ok (.ofVersions (history (parentOf kind resourceKey) (st.stored s).items)), t) := by
  obtain ⟨out, hout, hcases⟩ := historyOf_byIndex hvalid hexact kind resourceKey
  have hhistory : historyOf kind resourceKey out =
      .ok (.ofVersions (history (parentOf kind resourceKey) (st.stored s).items)) := by
    rcases hcases with ⟨-, hhistory⟩ | ⟨hduplicate, -⟩
    · exact hhistory
    · exact absurd (hkept.numbered _) hduplicate
  have hbyIndex : Prog.exec f
      (byIndex byParentRuleIndexName (buildParentIndexKey kind resourceKey)) t = (.ok out, t) := by
    rw [← hout]
    exact hread _ _
  unfold historyState
  rw [Prog.exec_bind, hbyIndex]
  show (historyOf kind resourceKey out, t) = _
  rw [hhistory]

/-- What is stored under the key of a version is read and checked, where `GetByKey` is answered by
the store. -/
theorem exec_getVersionResourceForRule_of_read
    (hread : ∀ key, f t (.getByKey key) = (st.getByKey s key, t)) (kind resourceKey : String)
    (n : ℤ) :
    Prog.exec f (getVersionResourceForRule kind resourceKey n) t =
      (checkVersionResource kind resourceKey n
        ((st.stored s).get? (buildVersionResourceKey kind resourceKey n)), t) := by
  have hgetByKey : Prog.exec f (getByKey (buildVersionResourceKey kind resourceKey n)) t =
      (.ok ((st.stored s).get? (buildVersionResourceKey kind resourceKey n)), t) := by
    rw [← st.getByKey_eq]
    exact hread _
  unfold getVersionResourceForRule
  rw [Prog.exec_bind, hgetByKey]
  rfl

/-- A stored record passes the checks under its own parent and number. -/
theorem checkVersionResource_of_kept {stored : Versions} {r : RuleVersionResource}
    (hr : r ∈ stored.items) {spec : RuleVersion} (hkept : Kept r spec) {kind resourceKey : String}
    (hparent : spec.parent = parentOf kind resourceKey) :
    checkVersionResource kind resourceKey spec.versionNo
      (stored.get? (buildVersionResourceKey kind resourceKey spec.versionNo)) = .ok r := by
  have hget : stored.get? (buildVersionResourceKey kind resourceKey spec.versionNo) = some r := by
    rw [buildVersionResourceKey_eq, ← hparent, ← hkept.key, Keyed.get?_key hr]
  have hmatches : versionResourceMatchesParent r kind resourceKey = true :=
    matchesParent_iff.mpr ⟨spec, hkept.holds, hparent⟩
  rw [hget]
  unfold checkVersionResource
  dsimp only
  rw [if_neg (not_not_intro hkept.ofKind), hkept.holds]
  simp [hmatches]

end Reading

/-! ## The calls, executed -/

/-- The store is in a state of its own, with an exact index and these contents. -/
structure At (st : VersionStore S) (l : LedgerState S) (stored : Versions) : Prop where
  valid : st.valid l.store
  exact : st.exact l.store
  contents : st.stored l.store = stored

theorem At.of_leaves {st : VersionStore S} {l l' : LedgerState S} {stored stored' : Versions}
    (h : At st l stored) (hleaves : st.Leaves l.store stored' l'.store) : At st l' stored' :=
  ⟨hleaves.valid, hleaves.exact h.exact, hleaves.stored⟩

section Exec

variable {st : VersionStore S} (times : ℕ → ℤ) {l : LedgerState S} {stored : Versions}

theorem exec_unlessCancelled {α : Type} (rest : LedgerProg (Except Failure α)) :
    Prog.exec (step st.toResourceStore times) (unlessCancelled rest) l =
      Prog.exec (step st.toResourceStore times) rest l := rfl

theorem exec_timeNow : Prog.exec (step st.toResourceStore times) timeNow l =
    (times l.readings, { l with readings := l.readings + 1 }) := rfl

theorem exec_historyState (h : At st l stored) (hkept : WellKept stored)
    (kind resourceKey : String) :
    Prog.exec (step st.toResourceStore times) (historyState kind resourceKey) l =
      (.ok (.ofVersions (history (parentOf kind resourceKey) stored.items)), l) := by
  obtain ⟨hvalid, hexact, rfl⟩ := h
  exact exec_historyState_of_read (fun _ _ => rfl) hvalid hexact hkept kind resourceKey

variable {spec : RuleVersion}

theorem exec_getVersionResourceForRule (h : At st l stored) {r : RuleVersionResource}
    (hr : r ∈ stored.items) (hkept : Kept r spec) {kind resourceKey : String}
    (hparent : spec.parent = parentOf kind resourceKey) :
    Prog.exec (step st.toResourceStore times)
      (getVersionResourceForRule kind resourceKey spec.versionNo) l = (.ok r, l) := by
  obtain ⟨-, -, rfl⟩ := h
  rw [← checkVersionResource_of_kept hr hkept hparent]
  exact exec_getVersionResourceForRule_of_read (fun _ => rfl) kind resourceKey spec.versionNo

variable {rv : RuleVersionResource}

theorem exec_add (h : At st l stored) (hrv : Kept rv spec)
    (hnone : stored.get? rv.resourceKey = none) :
    ∃ l', Prog.exec (step st.toResourceStore times) (add rv) l = (.ok (), l') ∧
      At st l' (stored.put rv) := by
  rw [← h.contents] at hnone
  obtain ⟨hok, hleaves⟩ := st.add_spec l.store rv h.valid (hrv.ofKind.trans st.kind_eq.symm) hnone
  rw [h.contents] at hleaves
  refine ⟨{ l with store := (st.add l.store rv).2 }, ?_, h.of_leaves hleaves⟩
  rw [← hok]
  rfl

theorem exec_delete (h : At st l stored) (hrv : rv ∈ stored.items) :
    ∃ l', Prog.exec (step st.toResourceStore times) (delete rv) l = (.ok (), l') ∧
      At st l' (stored.erase rv.resourceKey) := by
  have hsome : (st.stored l.store).get? rv.resourceKey = some rv := by
    rw [h.contents]
    exact Keyed.get?_key hrv
  have hleaves := st.delete_spec l.store rv h.valid
  rw [h.contents] at hleaves
  refine ⟨{ l with store := (st.delete l.store rv).2 }, ?_, h.of_leaves hleaves⟩
  rw [← st.delete_ok l.store rv rv h.valid hsome]
  rfl

/-- The loop of the retention removes the records of versions with distinct numbers. -/
theorem exec_deleteVersions (h : At st l stored) (hkept : WellKept stored)
    {kind resourceKey : String} {versions : List Version}
    (hversions : ∀ v ∈ versions, v ∈ history (parentOf kind resourceKey) stored.items)
    (hdescending : Descending versions) :
    ∃ l', Prog.exec (step st.toResourceStore times) (deleteVersions kind resourceKey versions) l =
        (.ok (), l') ∧ At st l' (eraseVersions (parentOf kind resourceKey) stored versions) := by
  induction versions generalizing l stored with
  | nil => exact ⟨l, rfl, h⟩
  | cons v versions ih =>
    obtain ⟨hbelow, hbehind⟩ := List.pairwise_cons.mp hdescending
    obtain ⟨r, hr, spec, hrecord, rfl⟩ := mem_history.mp (hversions v List.mem_cons_self)
    have hr' := hkept.kept hr hrecord
    obtain ⟨l₁, hdelete, h₁⟩ := exec_delete times h hr
    have hkey : r.resourceKey = (parentOf kind resourceKey).versionKey spec.versionNo := by
      rw [hr'.key, hrecord.ofParent]
    -- The other versions have other numbers, so that their records are still there.
    have hrest : ∀ w ∈ versions, w ∈ history (parentOf kind resourceKey)
        (stored.erase r.resourceKey).items := by
      intro w hw
      obtain ⟨r', hr', spec', hrecord', rfl⟩ := mem_history.mp
        (hversions w (List.mem_cons_of_mem _ hw))
      refine mem_history.mpr ⟨r', Keyed.mem_erase.mpr ⟨hr', fun hsame => ?_⟩, spec', hrecord', rfl⟩
      rw [hkey, (hkept.kept hr' hrecord').key, hrecord'.ofParent] at hsame
      have hnumber : spec'.versionNo = spec.versionNo := Parent.versionKey_inj_right _ hsame
      have hlt : -spec.versionNo < -spec'.versionNo := hbelow _ hw
      omega
    obtain ⟨l₂, hexec, h₂⟩ := ih h₁ (hkept.erase _) hrest hbehind
    refine ⟨l₂, ?_, ?_⟩
    · unfold deleteVersions
      have hget := exec_getVersionResourceForRule times h hr hr' hrecord.ofParent
      have hno : spec.toVersion.versionNo = spec.versionNo := rfl
      rw [exec_unlessCancelled, hno, Prog.exec_bind, hget]
      rw [Prog.exec_bind, hdelete]
      exact hexec
    · rw [hkey] at h₂
      exact h₂

/-- What the retention leaves. -/
def retained (p : Parent) (maxVersions : ℕ) (stored : Versions) : Versions :=
  if maxVersions > 0 then eraseVersions p stored ((history p stored.items).drop maxVersions)
  else stored

/-- The retention succeeds. -/
theorem exec_trimVersionsLocked (h : At st l stored) (hkept : WellKept stored)
    (kind resourceKey : String) (keep : ℕ) :
    ∃ l', Prog.exec (step st.toResourceStore times) (trimVersionsLocked kind resourceKey keep) l =
        (.ok (), l') ∧ At st l' (eraseVersions (parentOf kind resourceKey) stored
          ((history (parentOf kind resourceKey) stored.items).drop keep)) := by
  have hhistory := exec_historyState times h hkept kind resourceKey
  unfold trimVersionsLocked
  rw [Prog.exec_bind, hhistory]
  dsimp only
  rw [versions_ofVersions]
  split_ifs with hshort
  · refine ⟨l, rfl, ?_⟩
    rw [List.drop_eq_nil_of_le hshort]
    exact h
  · exact exec_deleteVersions times h hkept (fun v hv => List.mem_of_mem_drop hv)
      ((hkept.descending _).sublist (List.drop_sublist keep _))

/-- After the record was added, the call trims the history and returns the record. -/
theorem exec_finish (h : At st l stored) (hkept : WellKept stored) (req : InsertRequest)
    (maxVersions : ℕ) (hrv : rv.spec = some spec) :
    ∃ l', Prog.exec (step st.toResourceStore times) (finish req maxVersions rv) l =
        (.ok spec.toVersion, l') ∧ At st l' (retained req.parent maxVersions stored) := by
  unfold finish retained
  rw [exec_unlessCancelled, hrv]
  split_ifs with hmax
  · obtain ⟨l', htrim, h'⟩ := exec_trimVersionsLocked times h hkept req.ruleKind req.resourceKey
      maxVersions
    refine ⟨l', ?_, h'⟩
    rw [Prog.exec_bind, htrim]
    rfl
  · exact ⟨l, rfl, h⟩

variable {req : InsertRequest}

/-- The loop adds the record at its first attempt, under a number above all others. -/
theorem exec_allocate (h : At st l stored) (hkept : WellKept stored)
    (hkind : '-' ∉ req.ruleKind.toList) (createdAt recordedAt : ℤ) (addErr : Failure) :
    ∃ rv spec l', Prog.exec (step st.toResourceStore times)
        (allocate req createdAt recordedAt maxVersionAllocateAttempts
          (top req.parent stored + 1) addErr) l = (.ok rv, l') ∧ Kept rv spec ∧
      RecordOf req (top req.parent stored + 1) spec ∧ At st l' (stored.put rv) := by
  have hpos : 0 < top req.parent stored + 1 := by
    have hnonneg := top_nonneg hkept req.parent
    omega
  obtain ⟨spec, hrv, hrecord⟩ :=
    kept_newRuleVersionResource hkind hpos createdAt recordedAt
  have hnone := get?_eq_none_of_top_lt hkept hrv (by rw [hrecord.parent, hrecord.versionNo]; omega)
  obtain ⟨l', hadd, h'⟩ := exec_add times h hrv hnone
  refine ⟨_, spec, l', ?_, hrv, hrecord, h'⟩
  unfold maxVersionAllocateAttempts allocate
  rw [exec_unlessCancelled, Prog.exec_bind, hadd]
  rfl

/-- The number of the parent's newest record is what the history reports. -/
theorem exec_insertFrom (h : At st l stored) (hkept : WellKept stored)
    (hkind : '-' ∉ req.ruleKind.toList) (maxVersions : ℕ) :
    ∃ rv spec l', Prog.exec (step st.toResourceStore times)
        (insertFrom req maxVersions (top req.parent stored + 1)) l = (.ok spec.toVersion, l') ∧
      Kept rv spec ∧ RecordOf req (top req.parent stored + 1) spec ∧
      At st l' (retained req.parent maxVersions (stored.put rv)) := by
  -- The readings of the clock leave the store as it is.
  obtain ⟨created, l₁, hcreated, h₁⟩ : ∃ created l₁, Prog.exec (step st.toResourceStore times)
      (createdAt req) l = (created, l₁) ∧ At st l₁ stored := by
    unfold createdAt
    split_ifs
    · exact ⟨_, _, rfl, h.valid, h.exact, h.contents⟩
    · exact ⟨_, _, rfl, h⟩
  have h₂ : At st { l₁ with readings := l₁.readings + 1 } stored :=
    ⟨h₁.valid, h₁.exact, h₁.contents⟩
  obtain ⟨rv, spec, l₃, hallocate, hrv, hrecord, h₃⟩ :=
    exec_allocate times h₂ hkept hkind created (times l₁.readings) (.err "")
  obtain ⟨l₄, hfinish, h₄⟩ := exec_finish times h₃ (hkept.put hrv) req maxVersions hrv.holds
  refine ⟨rv, spec, l₄, ?_, hrv, hrecord, h₄⟩
  unfold insertFrom
  rw [Prog.exec_bind, hcreated, Prog.exec_bind, exec_timeNow, exec_unlessCancelled,
    Prog.exec_bind, hallocate]
  exact hfinish

/-- A call adds a record with the next number of its parent, trims the history, and returns the
record. -/
theorem exec_insertVersion (h : At st l stored) (hkept : WellKept stored)
    (hkind : '-' ∉ req.ruleKind.toList) (maxVersions : ℕ) :
    ∃ rv spec l', Prog.exec (step st.toResourceStore times) (insertVersion req maxVersions) l =
        (.ok spec.toVersion, l') ∧
      Kept rv spec ∧ RecordOf req (top req.parent stored + 1) spec ∧
      At st l' (retained req.parent maxVersions (stored.put rv)) := by
  obtain ⟨rv, spec, l', hexec, hrest⟩ := exec_insertFrom times h hkept hkind maxVersions
  refine ⟨rv, spec, l', ?_, hrest⟩
  have hhistory := exec_historyState times h hkept req.ruleKind req.resourceKey
  unfold insertVersion
  rw [exec_unlessCancelled, Prog.exec_bind, hhistory]
  exact hexec

end Exec

/-! ## Runs -/

/-- A call of `InsertVersion`, for a rule of a kind without `-`. -/
structure InsertCall where
  req : InsertRequest
  maxVersions : ℕ
  kind : '-' ∉ req.ruleKind.toList

/-- A ledger between calls: its state, and the numbers that were returned so far. -/
structure Ledger (S : Type) where
  state : LedgerState S
  returned : List (Parent × ℤ)

/-- The largest number that was returned for a parent, or `0`. -/
def largest (returned : List (Parent × ℤ)) (p : Parent) : ℤ :=
  returned.foldr (fun entry n => if entry.1 = p then max entry.2 n else n) 0

/-- One call: what it returns, and the ledger after it. -/
def call (st : VersionStore S) (times : ℕ → ℤ) (g : Ledger S) (c : InsertCall) :
    Except Failure Version × Ledger S :=
  match Prog.exec (step st.toResourceStore times) (insertVersion c.req c.maxVersions) g.state with
  | (.ok v, l) => (.ok v, ⟨l, (c.req.parent, v.versionNo) :: g.returned⟩)
  | (.error e, l) => (.error e, ⟨l, g.returned⟩)

/-- The recorded history of a parent, as the code reads it. -/
def recorded (st : VersionStore S) (times : ℕ → ℤ) (g : Ledger S) (kind resourceKey : String) :
    Except Failure (List Version) :=
  (Prog.exec (step st.toResourceStore times) (historyState kind resourceKey) g.state).1.map
    HistoryState.versions

/-- The most recent records of a history: all of them for the limit `0`. -/
def keepRecent (maxVersions : ℕ) (versions : List Version) : List Version :=
  if maxVersions = 0 then versions else versions.take maxVersions

/-- What a call that returns `v` does to the ledger. -/
structure Appends (st : VersionStore S) (times : ℕ → ℤ) (g : Ledger S) (c : InsertCall)
    (v : Version) (g' : Ledger S) : Prop where
  /-- The number follows the largest one that was ever returned for the parent. -/
  number : v.versionNo = 1 + largest g.returned c.req.parent
  /-- The parent's history is the most recent part of what it was with `v` before it, and it
  descends. -/
  own : ∃ old, recorded st times g c.req.ruleKind c.req.resourceKey = .ok old ∧
    recorded st times g' c.req.ruleKind c.req.resourceKey =
      .ok (keepRecent c.maxVersions (v :: old)) ∧ Descending (keepRecent c.maxVersions (v :: old))
  /-- The history of every other parent is as it was. -/
  others : ∀ kind resourceKey, parentOf kind resourceKey ≠ c.req.parent →
    recorded st times g' kind resourceKey = recorded st times g kind resourceKey

/-- The store was empty at the start, and nothing was returned. -/
structure Fresh (st : VersionStore S) (g : Ledger S) : Prop where
  empty : At st g.state Keyed.empty
  returned : g.returned = []

/-- The ledger keeps its records in order, and each parent's highest number is the last one that was
returned for it. -/
def InOrder (st : VersionStore S) (g : Ledger S) : Prop :=
  ∃ stored, At st g.state stored ∧ WellKept stored ∧ ∀ p, top p stored = largest g.returned p

section Runs

variable {st : VersionStore S} {times : ℕ → ℤ} {g : Ledger S} {stored : Versions}

theorem recorded_eq (h : At st g.state stored) (hkept : WellKept stored)
    (kind resourceKey : String) :
    recorded st times g kind resourceKey =
      .ok (history (parentOf kind resourceKey) stored.items) := by
  unfold recorded
  rw [exec_historyState times h hkept]
  show Except.ok (HistoryState.ofVersions _).versions = _
  rw [versions_ofVersions]

theorem WellKept.retained (h : WellKept stored) (p : Parent) (maxVersions : ℕ) :
    WellKept (retained p maxVersions stored) := by
  unfold Versioning.retained
  split_ifs
  · exact h.eraseVersions p _
  · exact h

theorem history_retained_self (h : WellKept stored) (p : Parent) (maxVersions : ℕ) :
    history p (retained p maxVersions stored).items =
      keepRecent maxVersions (history p stored.items) := by
  unfold retained keepRecent
  by_cases hmax : maxVersions = 0
  · rw [if_neg (by omega), if_pos hmax]
  · rw [if_pos (by omega), if_neg hmax]
    exact history_eraseVersions_self h p maxVersions

theorem history_retained_other (h : WellKept stored) {p p' : Parent} (hother : p' ≠ p)
    (maxVersions : ℕ) :
    history p' (retained p maxVersions stored).items = history p' stored.items := by
  unfold retained
  split_ifs
  · exact history_eraseVersions_other h (fun v hv => List.mem_of_mem_drop hv) hother
  · rfl

theorem top_keepRecent (v : Version) (old : List Version) (maxVersions : ℕ) :
    (HistoryState.ofVersions (keepRecent maxVersions (v :: old))).maxVersionNo = v.versionNo := by
  unfold keepRecent
  split_ifs with hmax
  · rfl
  · obtain ⟨n, rfl⟩ := Nat.exists_eq_succ_of_ne_zero hmax
    rfl

theorem largest_cons (returned : List (Parent × ℤ)) (q p : Parent) (n : ℤ) :
    largest ((q, n) :: returned) p =
      if q = p then max n (largest returned p) else largest returned p := rfl

/-- A call appends a record to the history of its parent and trims it, and leaves all other
histories as they are. -/
theorem exec_insertVersion_history {l : LedgerState S} (times : ℕ → ℤ) (hat : At st l stored)
    (hkept : WellKept stored) {req : InsertRequest} (hkind : '-' ∉ req.ruleKind.toList)
    (maxVersions : ℕ) :
    ∃ spec l' stored', Prog.exec (step st.toResourceStore times) (insertVersion req maxVersions) l =
        (.ok spec.toVersion, l') ∧ RecordOf req (top req.parent stored + 1) spec ∧
      At st l' stored' ∧ WellKept stored' ∧
      history req.parent stored'.items =
        keepRecent maxVersions (spec.toVersion :: history req.parent stored.items) ∧
      ∀ p, p ≠ req.parent → history p stored'.items = history p stored.items := by
  obtain ⟨rv, spec, l', hexec, hrv, hrecord, hat'⟩ :=
    exec_insertVersion times hat hkept hkind maxVersions
  have hput := hkept.put hrv
  have hparent := hrecord.parent
  have hlt : top spec.parent stored < spec.versionNo := by
    rw [hparent, hrecord.versionNo]
    omega
  have hself := history_put_self hkept hrv hlt
  rw [hparent] at hself
  refine ⟨spec, l', _, hexec, hrecord, hat', hput.retained req.parent maxVersions, ?_, ?_⟩
  · rw [history_retained_self hput, hself]
  · intro p hp
    rw [history_retained_other hput hp, history_put_other hkept hrv (hparent ▸ hp)]

/-- A call on a ledger in order appends its record and leaves the ledger in order. -/
theorem call_appends (times : ℕ → ℤ) (h : InOrder st g) (c : InsertCall) :
    ∃ v g', call st times g c = (.ok v, g') ∧ Appends st times g c v g' ∧ InOrder st g' := by
  obtain ⟨stored, hat, hkept, htop⟩ := h
  obtain ⟨spec, l', stored', hexec, hrecord, hat', hkept', hown, hothers⟩ :=
    exec_insertVersion_history times hat hkept c.kind c.maxVersions
  refine ⟨spec.toVersion, ⟨l', (c.req.parent, spec.versionNo) :: g.returned⟩, ?_, ⟨?_, ?_, ?_⟩,
    stored', hat', hkept', fun p => ?_⟩
  · unfold call
    rw [hexec]
    rfl
  · show spec.versionNo = _
    rw [hrecord.versionNo, htop]
    omega
  · refine ⟨history c.req.parent stored.items, recorded_eq hat hkept _ _, ?_, ?_⟩
    · rw [recorded_eq hat' hkept']
      exact congrArg Except.ok hown
    · rw [← hown]
      exact hkept'.descending _
  · intro kind resourceKey hother
    rw [recorded_eq hat' hkept', recorded_eq hat hkept, hothers _ hother]
  · show _ = largest ((c.req.parent, spec.versionNo) :: g.returned) p
    rw [largest_cons]
    split_ifs with hp
    · subst hp
      unfold top
      rw [hown, top_keepRecent, ← htop]
      show spec.versionNo = max spec.versionNo (top c.req.parent stored)
      have hnumber := hrecord.versionNo
      omega
    · unfold top
      rw [hothers p (Ne.symm hp), ← htop]
      rfl

theorem inOrder_of_run {g₀ : Ledger S} (hfresh : Fresh st g₀) {calls : List InsertCall}
    (hrun : Run (fun g c g' => (call st times g c).2 = g') g₀ calls g) : InOrder st g := by
  have hinit : InOrder st g₀ := by
    refine ⟨Keyed.empty, hfresh.empty, fun r hr => absurd hr List.not_mem_nil, fun p => ?_⟩
    rw [hfresh.returned]
    rfl
  refine hrun.invariant (InOrder st) hinit fun g c g' hg hstep => ?_
  obtain ⟨v, g'', hcall, -, horder⟩ := call_appends times hg c
  rw [hcall] at hstep
  exact hstep ▸ horder

/-- In every run of calls from an empty store, the next call returns the number after the largest
one that was ever returned for its parent; afterwards the parent's history is the most recent part
of its records, in strictly descending order, and the history of every other parent is as it was. -/
theorem insertVersion_in_run {g₀ : Ledger S} (hfresh : Fresh st g₀) {calls : List InsertCall}
    (hrun : Run (fun g c g' => (call st times g c).2 = g') g₀ calls g) (c : InsertCall) :
    ∃ v g', call st times g c = (.ok v, g') ∧ Appends st times g c v g' := by
  have horder := inOrder_of_run hfresh hrun
  obtain ⟨v, g', hcall, happends, -⟩ := call_appends times horder c
  exact ⟨v, g', hcall, happends⟩

end Runs

/-! ## A sample run -/

/-- A request for a rule whose name looks like the end of a version key. -/
def sampleRequest : InsertRequest where
  ruleKind := "TagRoute"
  resourceKey := "mesh/app-version-1"
  specJSON := ""
  contentHash := ""
  source := .admin
  operation := .update
  author := ""
  reason := ""
  rolledBackFromVersionNo := none
  createdAt := 0

/-- The call that keeps only its own record. -/
def sampleCall : InsertCall := ⟨sampleRequest, 1, by decide⟩

/-- A ledger over an empty memory store. -/
def sampleLedger : Ledger (Memory.ResourceStore (Option RuleVersion)) :=
  ⟨⟨Memory.init ruleVersionIndexers, 0⟩, []⟩

theorem fresh_sampleLedger : Fresh memoryVersionStore sampleLedger :=
  ⟨⟨rfl, trivial, rfl⟩, rfl⟩

/-- The second call for a rule returns the number `2`, after the retention has removed the first
record. -/
theorem insertVersion_after_one :
    ∃ g, Run (fun g c g' => (call memoryVersionStore (fun n => n) g c).2 = g') sampleLedger
        [sampleCall] g ∧ largest g.returned sampleRequest.parent = 1 ∧
      ∃ v g', call memoryVersionStore (fun n => n) g sampleCall = (.ok v, g') ∧
        Appends memoryVersionStore (fun n => n) g sampleCall v g' := by
  have hrun : Run (fun g c g' => (call memoryVersionStore (fun n => n) g c).2 = g') sampleLedger
      [sampleCall] (call memoryVersionStore (fun n => n) sampleLedger sampleCall).2 :=
    .snoc .nil rfl
  exact ⟨_, hrun, rfl, insertVersion_in_run fresh_sampleLedger hrun sampleCall⟩

end DubboAdmin.Versioning
